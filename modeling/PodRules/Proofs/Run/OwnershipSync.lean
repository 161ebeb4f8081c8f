import PodRules.Proofs.Cluster.Service
import PodRules.Proofs.Order.SortedMap
import PodRules.Proofs.Pass.PlanTasks
import PodRules.Proofs.Pass.Release
import PodRules.Proofs.Run.Blocking

namespace PodRules

def Exchange.ReturnsStored (x : Exchange) : Prop :=
  ∀ p stored, x = ⟨.store (.updateTarget p), .ok stored⟩ → ∃ version, stored = p.atVersion version

inductive OwnershipTask.Before : OwnershipTask → OwnershipTask → Prop
  | releases {m n : String} (h : compare m n = .lt) : Before (release m) (release n)
  | claims {m n : String} (h : compare m n = .lt) : Before (claim m) (claim n)
  | releaseFirst (m n : String) : Before (release m) (claim n)

/-- Tasks that release what was recorded and is not selected, then claim what is selected, every
name once. -/
structure PlansInOrder (recorded : List String) (selected : SortedSet String)
    (tasks : List OwnershipTask) : Prop where
  released : ∀ name, .release name ∈ tasks ↔ name ∈ recorded ∧ name ∉ selected
  claimed : ∀ name, .claim name ∈ tasks ↔ name ∈ selected
  order : tasks.Pairwise OwnershipTask.Before
  once : (tasks.map (·.name)).Nodup

/-- A target that is not looked at, not written and not waited for. What is written is a pod that
was fetched before, so it has to come from a store that answers with the pod asked for. -/
structure LeavesAlone (key : ObjectKey) (τ : List Exchange) : Prop where
  fetched : ∀ x ∈ τ, x.call.fetched? ≠ some key
  written : (∀ k pod, (⟨.store (.getTarget k), .ok pod⟩ : Exchange) ∈ τ → pod.key = k) →
    ∀ u reply, (⟨.store (.updateTarget u), reply⟩ : Exchange) ∈ τ → u.key ≠ key
  expected : ∀ x ∈ τ, x.call.expectation? ≠ some key

/-- How a plan comes to its end. -/
inductive SyncEnds (b : RetryBackoff) (ns ruleSet : String) (tasks : List OwnershipTask)
    (τ : List Exchange) : Except Failure (List Pod) → Prop
  /-- All tasks were done. The rule set owns what was claimed and nothing that was released. -/
  | completed {edits : List (OwnershipTask × TargetEdit)}
      (hdone : CarriedOut b ns ruleSet tasks τ edits)
      (howners : ∀ e ∈ edits, ∀ pod, e.2.pod? = some pod →
        (ruleSet ∈ pod.owners ↔ ∃ name, e.1 = .claim name))
      (hnames : ((claimedTargets edits).map (·.1)).Pairwise fun m n => compare m n = .lt)
      (hothers : ∀ key, (∀ task ∈ tasks, key ≠ ⟨ns, task.name⟩) → LeavesAlone key τ) :
      SyncEnds b ns ruleSet tasks τ (.ok ((claimedTargets edits).map (·.2)))
  /-- A task failed. Those before it were done, and those after it were not begun. -/
  | stopped {before after : List OwnershipTask} {task : OwnershipTask} {done failed : List Exchange}
      {edits : List (OwnershipTask × TargetEdit)} {e : Failure}
      (htasks : tasks = before ++ task :: after) (hτ : τ = done ++ failed)
      (hdone : CarriedOut b ns ruleSet before done edits)
      (hfailed : TaskFailed b ns ruleSet task failed e)
      (hafter : ∀ later ∈ after, LeavesAlone ⟨ns, later.name⟩ τ)
      (hothers : ∀ key, (∀ t ∈ tasks, key ≠ ⟨ns, t.name⟩) → LeavesAlone key τ) :
      SyncEnds b ns ruleSet tasks τ (.error e)

/-- The accepted write of a claim in its trace: it comes right after the fetch of its target, and
right after it the target is armed. As long as nobody else uses that expectation, views of the
target are measured by the version that was fetched. -/
inductive ArmedClaim (ns ruleSet : String) (τ : List Exchange) :
    (before : List Exchange) → (u : Pod) → (after : List Exchange) → Prop
  | mk {name : String} {pod : Pod} {past rest : List Exchange}
      (hrest : ∀ x ∈ rest, x.call.expectation? ≠ some ⟨ns, name⟩)
      (hblocks : ∀ (t : Expectations) log pass now, traceOf pass log = τ →
        (∀ e ∈ log, e.now ≤ now) → (∀ e ∈ log, e.pass ≠ pass → e.uses ⟨ns, name⟩ = false) →
        ∃ armed ∈ log, armed.pass = pass ∧
          armed.exchange = ⟨.arm ⟨ns, name⟩ pod.version, ()⟩ ∧
          (now - armed.now < t.ttl.nanos →
            (t.after log).blocking now ⟨ns, name⟩ = some ⟨pod.version, armed.now⟩)) :
      ArmedClaim ns ruleSet τ (past ++ [⟨.store (.getTarget ⟨ns, name⟩), .ok pod⟩])
        (pod.addOwner ruleSet).1 (⟨.arm ⟨ns, name⟩ pod.version, ()⟩ :: rest)

section

variable {b : RetryBackoff} {ns ruleSet : String} {recorded : List String}
  {selected : SortedSet String} {task : OwnershipTask} {tasks more : List OwnershipTask}
  {τ σ before after : List Exchange} {w : TargetEdit}
  {edits : List (OwnershipTask × TargetEdit)} {key : ObjectKey}

/-! ## The order of the tasks -/

theorem OwnershipTask.key_edit (task : OwnershipTask) (pod : Pod) :
    (task.edit ruleSet pod).1.key = pod.key := by
  cases task with
  | release name => exact Pod.key_removeOwner pod ruleSet
  | claim name => exact Pod.key_addOwner pod ruleSet

theorem OwnershipTask.mem_owners_edit_iff (task : OwnershipTask) (pod : Pod) :
    ruleSet ∈ (task.edit ruleSet pod).1.owners ↔ ∃ name, task = .claim name := by
  cases task with
  | release name => simp [edit]
  | claim name => simp [edit]

theorem map_name_tasks (plan : ClaimPlan) :
    plan.tasks.map (·.name) = plan.release ++ plan.claim := by
  have hrelease : OwnershipTask.name ∘ OwnershipTask.release = id := rfl
  have hclaim : OwnershipTask.name ∘ OwnershipTask.claim = id := rfl
  rw [ClaimPlan.tasks, List.map_append, List.map_map, List.map_map, hrelease, hclaim,
    List.map_id, List.map_id]

/-- The plan of a selection releases first, claims after that, and names nothing twice. -/
theorem plansInOrder (recorded : List String) (selected : SortedSet String) :
    PlansInOrder recorded selected (ClaimPlan.ofSelection recorded selected).tasks where
  released name := by
    rw [← ClaimPlan.mem_release]
    simp [ClaimPlan.tasks]
  claimed name := by
    rw [SortedSet.mem_def]
    simp [ClaimPlan.tasks, ClaimPlan.ofSelection]
  order := by
    refine List.pairwise_append.2 ⟨List.pairwise_map.2 ?_, List.pairwise_map.2 ?_, ?_⟩
    · exact (SortedSet.ascending _).imp fun h => .releases h
    · exact selected.ascending.imp fun h => .claims h
    · intro t ht u hu
      obtain ⟨m, -, rfl⟩ := List.mem_map.1 ht
      obtain ⟨n, -, rfl⟩ := List.mem_map.1 hu
      exact .releaseFirst m n
  once := by
    rw [map_name_tasks]
    refine List.nodup_append.2 ⟨SortedMap.nodup_of_ascending (SortedSet.ascending _),
      SortedMap.nodup_of_ascending selected.ascending, ?_⟩
    rintro m hm _ hn rfl
    exact (ClaimPlan.mem_release.1 hm).2 hn

/-! ## What the exchanges of tasks are about -/

structure WorksOn (ns ruleSet : String) (tasks : List OwnershipTask) (τ : List Exchange) : Prop where
  fetches : ∀ x ∈ τ, ∀ key, x.call.fetched? = some key → ∃ t ∈ tasks, key = ⟨ns, t.name⟩
  expectations : ∀ x ∈ τ, ∀ key, x.call.expectation? = some key → ∃ t ∈ tasks, key = ⟨ns, t.name⟩
  writes : ∀ before u reply after, τ = before ++ ⟨.store (.updateTarget u), reply⟩ :: after →
    ∃ t ∈ tasks, ∃ past pod,
      before = past ++ [⟨.store (.getTarget ⟨ns, t.name⟩), .ok pod⟩] ∧ u = (t.edit ruleSet pod).1

namespace WorksOn

theorem nil (ns ruleSet : String) (tasks : List OwnershipTask) : WorksOn ns ruleSet tasks [] :=
  ⟨by simp, by simp, by simp⟩

theorem mono (h : WorksOn ns ruleSet tasks τ) (hsub : ∀ t ∈ tasks, t ∈ more) :
    WorksOn ns ruleSet more τ where
  fetches x hx key hkey :=
    let ⟨t, ht, he⟩ := h.fetches x hx key hkey
    ⟨t, hsub t ht, he⟩
  expectations x hx key hkey :=
    let ⟨t, ht, he⟩ := h.expectations x hx key hkey
    ⟨t, hsub t ht, he⟩
  writes before u reply after hτ :=
    let ⟨t, ht, he⟩ := h.writes before u reply after hτ
    ⟨t, hsub t ht, he⟩

theorem append (h : WorksOn ns ruleSet tasks τ) (h' : WorksOn ns ruleSet tasks σ) :
    WorksOn ns ruleSet tasks (τ ++ σ) where
  fetches x hx := (List.mem_append.1 hx).elim (h.fetches x) (h'.fetches x)
  expectations x hx := (List.mem_append.1 hx).elim (h.expectations x) (h'.expectations x)
  writes before u reply after hτ := by
    rcases Pass.split_append hτ with ⟨mid, hsplit, -⟩ | ⟨mid, rfl, hsplit⟩
    · exact h.writes _ _ _ _ hsplit
    · obtain ⟨t, ht, past, pod, rfl, hu⟩ := h'.writes _ _ _ _ hsplit
      exact ⟨t, ht, τ ++ past, pod, by rw [List.append_assoc], hu⟩

/-- A call that neither looks at a target nor writes one. -/
theorem single {x : Exchange} (hfetch : x.call.fetched? = none)
    (hwrite : ∀ u, x.call ≠ .store (.updateTarget u))
    (hexpect : ∀ key, x.call.expectation? = some key → ∃ t ∈ tasks, key = ⟨ns, t.name⟩) :
    WorksOn ns ruleSet tasks [x] where
  fetches y hy key hkey := by
    obtain rfl := List.mem_singleton.1 hy
    cases hfetch.symm.trans hkey
  expectations y hy key hkey := by
    obtain rfl := List.mem_singleton.1 hy
    exact hexpect key hkey
  writes before u reply after hτ := by
    have hmem : (⟨.store (.updateTarget u), reply⟩ : Exchange) ∈ [x] := by simp [hτ]
    exact absurd (List.mem_singleton.1 hmem ▸ rfl) (hwrite u)

end WorksOn

/-! ## One task -/

theorem eq_of_pair_split {x y z : Exchange} (h : [x, y] = before ++ z :: after) :
    (before = [] ∧ z = x ∧ after = [y]) ∨ (before = [x] ∧ z = y ∧ after = []) := by
  rcases List.cons_eq_append_iff.1 h with ⟨rfl, hz⟩ | ⟨rest, rfl, hrest⟩
  · cases hz
    exact .inl ⟨rfl, rfl, rfl⟩
  · obtain ⟨rfl, hz⟩ := List.append_eq_singleton_iff.1 hrest.symm |>.resolve_right (by simp)
    cases hz
    exact .inr ⟨rfl, rfl, rfl⟩

/-- An attempt writes once, if at all, and as its last call. -/
theorem EditAttempt.write_last {key : ObjectKey} {edit : Pod → Pod × Bool}
    {o : Except StoreError TargetEdit} {u : Pod} {reply : Except StoreError Pod}
    (h : EditAttempt key edit τ o)
    (hτ : τ = before ++ ⟨.store (.updateTarget u), reply⟩ :: after) :
    ∃ pod, before = [⟨.store (.getTarget key), .ok pod⟩] ∧ u = (edit pod).1 ∧ after = [] ∧
      ∀ stored, reply = .ok stored → o = .ok (.written pod.version stored) := by
  have hmem : (⟨.store (.updateTarget u), reply⟩ : Exchange) ∈ τ := by simp [hτ]
  cases h with
  | absent m => cases List.mem_singleton.1 hmem
  | unread e he => cases List.mem_singleton.1 hmem
  | unchanged pod hc => cases List.mem_singleton.1 hmem
  | written pod stored hc =>
    rcases eq_of_pair_split hτ with ⟨-, hx, -⟩ | ⟨rfl, hx, rfl⟩
    · cases hx
    · cases hx
      exact ⟨pod, rfl, rfl, rfl, by rintro _ ⟨⟩; rfl⟩
  | vanished pod m hc =>
    rcases eq_of_pair_split hτ with ⟨-, hx, -⟩ | ⟨rfl, hx, rfl⟩
    · cases hx
    · cases hx
      exact ⟨pod, rfl, rfl, rfl, by rintro _ ⟨⟩⟩
  | unwritten pod e hc he =>
    rcases eq_of_pair_split hτ with ⟨-, hx, -⟩ | ⟨rfl, hx, rfl⟩
    · cases hx
    · cases hx
      exact ⟨pod, rfl, rfl, rfl, by rintro _ ⟨⟩⟩

/-- An attempt that ends in an error has written nothing. -/
theorem EditAttempt.not_accepted {key : ObjectKey} {edit : Pod → Pod × Bool} {e : StoreError}
    (h : EditAttempt key edit τ (.error e)) (u stored : Pod) :
    (⟨.store (.updateTarget u), .ok stored⟩ : Exchange) ∉ τ := by
  intro hmem
  obtain ⟨before, after, hτ⟩ := List.append_of_mem hmem
  obtain ⟨pod, -, -, -, haccepted⟩ := h.write_last hτ
  cases haccepted stored rfl

theorem EditAttempt.worksOn {o : Except StoreError TargetEdit}
    (h : EditAttempt ⟨ns, task.name⟩ (task.edit ruleSet) τ o) : WorksOn ns ruleSet [task] τ where
  fetches x hx key hkey := by
    refine ⟨task, List.mem_singleton.2 rfl, ?_⟩
    cases h <;> simp at hx <;> rcases hx with rfl | rfl <;> cases hkey <;> rfl
  expectations x hx key hkey := by
    cases h <;> simp at hx <;> rcases hx with rfl | rfl <;> cases hkey
  writes before u reply after hτ := by
    obtain ⟨pod, rfl, hu, -, -⟩ := h.write_last hτ
    exact ⟨task, List.mem_singleton.2 rfl, [], pod, rfl, hu⟩

/-- Attempts that met a conflict have written nothing. -/
theorem worksOn_waits {number count : Nat}
    (h : Pass.Waits b (task.attempt ns ruleSet) number count τ) :
    WorksOn ns ruleSet [task] τ ∧
      ∀ u stored, (⟨.store (.updateTarget u), .ok stored⟩ : Exchange) ∉ τ := by
  induction h with
  | nil => exact ⟨.nil ns ruleSet _, by simp⟩
  | @wait number count σ rest m hσ _ ih =>
    obtain ⟨o, ho, ha⟩ := ends_editOnce hσ
    cases ho
    have hsleep : WorksOn ns ruleSet [task] [⟨.sleep (b.delay number), ()⟩] :=
      .single rfl (by rintro u ⟨⟩) (by rintro key ⟨⟩)
    refine ⟨ha.worksOn.append (hsleep.append ih.1), fun u stored hmem => ?_⟩
    rcases List.mem_append.1 hmem with hmem | hmem
    · exact ha.not_accepted u stored hmem
    · rcases List.mem_cons.1 hmem with hmem | hmem
      · cases hmem
      · exact ih.2 u stored hmem

theorem worksOn_aftermath (w : TargetEdit) : WorksOn ns ruleSet [task] (task.aftermath ns w) := by
  cases task with
  | release name => exact .nil ns ruleSet _
  | claim name =>
    cases w with
    | written base pod =>
      refine .single rfl (by rintro u ⟨⟩) ?_
      rintro key ⟨⟩
      exact ⟨_, List.mem_singleton.2 rfl, rfl⟩
    | unchanged pod | gone => exact .nil ns ruleSet _

theorem ne_write_of_mem_aftermath {x : Exchange} (hx : x ∈ task.aftermath ns w) (u : Pod) :
    x.call ≠ .store (.updateTarget u) := by
  cases task <;> cases w <;> simp [OwnershipTask.aftermath] at hx
  rw [hx]
  rintro ⟨⟩

/-- A task works on its own target, with all attempts. -/
theorem TaskDone.worksOn (h : TaskDone b ns ruleSet task τ w) : WorksOn ns ruleSet [task] τ := by
  cases h with
  | mk hwaits _ hlast =>
    exact ((worksOn_waits hwaits).1.append hlast.worksOn).append (worksOn_aftermath w)

/-- A task that failed has written nothing. -/
theorem TaskFailed.worksOn {e : Failure} (h : TaskFailed b ns ruleSet task τ e) :
    WorksOn ns ruleSet [task] τ ∧
      ∀ u stored, (⟨.store (.updateTarget u), .ok stored⟩ : Exchange) ∉ τ := by
  have hboth {before last : List Exchange} {count : Nat} {e : StoreError}
      (hwaits : Pass.Waits b (task.attempt ns ruleSet) 1 count before)
      (hlast : EditAttempt ⟨ns, task.name⟩ (task.edit ruleSet) last (.error e)) :
      WorksOn ns ruleSet [task] (before ++ last) ∧
        ∀ u stored, (⟨.store (.updateTarget u), .ok stored⟩ : Exchange) ∉ before ++ last := by
    refine ⟨(worksOn_waits hwaits).1.append hlast.worksOn, fun u stored hmem => ?_⟩
    exact (List.mem_append.1 hmem).elim ((worksOn_waits hwaits).2 u stored)
      (hlast.not_accepted u stored)
  cases h with
  | refused hwaits _ hlast => exact hboth hwaits hlast
  | exhausted hwaits _ hlast => exact hboth hwaits hlast

/-- The accepted write of a task comes right after its fetch, and nothing but the aftermath comes
after it. -/
theorem TaskDone.accepted (h : TaskDone b ns ruleSet task τ w) {u stored : Pod}
    (hτ : τ = before ++ ⟨.store (.updateTarget u), .ok stored⟩ :: after) :
    ∃ past pod, before = past ++ [⟨.store (.getTarget ⟨ns, task.name⟩), .ok pod⟩] ∧
      u = (task.edit ruleSet pod).1 ∧ after = task.aftermath ns (.written pod.version stored) := by
  -- The write is neither in an attempt that met a conflict nor in the aftermath.
  cases h with
  | @mk count first last _ hwaits _ hlast =>
    rcases Pass.split_append hτ with ⟨mid, hattempts, rfl⟩ | ⟨mid, -, haftermath⟩
    · rcases Pass.split_append hattempts with ⟨mid', rfl, -⟩ | ⟨mid', rfl, hedit⟩
      · exact absurd (by simp) ((worksOn_waits hwaits).2 u stored)
      · obtain ⟨pod, rfl, hu, rfl, haccepted⟩ := hlast.write_last hedit
        cases haccepted stored rfl
        exact ⟨first, pod, rfl, hu, rfl⟩
    · have hmem : (⟨.store (.updateTarget u), .ok stored⟩ : Exchange) ∈ task.aftermath ns w := by
        simp [haftermath]
      exact absurd rfl (ne_write_of_mem_aftermath hmem u)

/-! ## All tasks -/

theorem CarriedOut.worksOn (h : CarriedOut b ns ruleSet tasks τ edits) :
    WorksOn ns ruleSet tasks τ := by
  induction h with
  | nil => exact .nil ns ruleSet _
  | cons hd _ ih =>
    refine (hd.worksOn.mono ?_).append (ih.mono ?_)
    · simp
    · exact fun t ht => List.mem_cons_of_mem _ ht

/-- An accepted write belongs to one of the tasks. What comes after its aftermath belongs to later
tasks. -/
theorem CarriedOut.accepted (h : CarriedOut b ns ruleSet tasks τ edits) {u stored : Pod}
    (hτ : τ = before ++ ⟨.store (.updateTarget u), .ok stored⟩ :: after) :
    ∃ earlier t later past pod rest, tasks = earlier ++ t :: later ∧
      before = past ++ [⟨.store (.getTarget ⟨ns, t.name⟩), .ok pod⟩] ∧
      u = (t.edit ruleSet pod).1 ∧
      after = t.aftermath ns (.written pod.version stored) ++ rest ∧
      WorksOn ns ruleSet later rest := by
  -- On the tasks: the write is one of the first task, or of those after it.
  induction h generalizing before with
  | nil => simp at hτ
  | @cons task tasks τ σ w edits hd hr ih =>
    rcases Pass.split_append hτ with ⟨mid, hsplit, rfl⟩ | ⟨mid, rfl, hsplit⟩
    · obtain ⟨past, pod, rfl, hu, rfl⟩ := hd.accepted hsplit
      exact ⟨[], task, tasks, past, pod, σ, rfl, rfl, hu, rfl, hr.worksOn⟩
    · obtain ⟨earlier, t, later, past, pod, rest, rfl, rfl, hu, hafter, hrest⟩ := ih hsplit
      exact ⟨task :: earlier, t, later, τ ++ past, pod, rest, rfl, by rw [List.append_assoc], hu,
        hafter, hrest⟩

/-- Likewise when a later task fails. -/
theorem PlanRun.accepted {run : Except Failure (List (OwnershipTask × TargetEdit))}
    (h : PlanRun b ns ruleSet tasks τ run) {u stored : Pod}
    (hτ : τ = before ++ ⟨.store (.updateTarget u), .ok stored⟩ :: after) :
    ∃ earlier t later past pod rest, tasks = earlier ++ t :: later ∧
      before = past ++ [⟨.store (.getTarget ⟨ns, t.name⟩), .ok pod⟩] ∧
      u = (t.edit ruleSet pod).1 ∧
      after = t.aftermath ns (.written pod.version stored) ++ rest ∧
      WorksOn ns ruleSet later rest := by
  cases h with
  | completed hdone => exact hdone.accepted hτ
  | @stopped done after' task done' failed _ e htasks hdone hfailed =>
    rcases Pass.split_append hτ with ⟨mid, hsplit, rfl⟩ | ⟨mid, -, hsplit⟩
    · obtain ⟨earlier, t, later, past, pod, rest, rfl, hbefore, hu, rfl, hrest⟩ :=
        hdone.accepted hsplit
      refine ⟨earlier, t, later ++ task :: after', past, pod, rest ++ failed, ?_, hbefore, hu,
        by rw [List.append_assoc], (hrest.mono ?_).append (hfailed.worksOn.1.mono ?_)⟩
      · rw [htasks, List.append_assoc]
        rfl
      · exact fun t ht => List.mem_append_left _ ht
      · simp
    · -- The task that failed has written nothing.
      exact absurd (hsplit ▸ by simp) (hfailed.worksOn.2 u stored)

/-- What is not the target of a task is left alone. -/
theorem WorksOn.leavesAlone (h : WorksOn ns ruleSet tasks τ)
    (hkey : ∀ t ∈ tasks, key ≠ ⟨ns, t.name⟩) : LeavesAlone key τ where
  fetched x hx hfetched := by
    obtain ⟨t, ht, he⟩ := h.fetches x hx key hfetched
    exact hkey t ht he
  written hfetch u reply hmem := by
    obtain ⟨before, after, hτ⟩ := List.append_of_mem hmem
    obtain ⟨t, ht, past, pod, rfl, rfl⟩ := h.writes _ _ _ _ hτ
    have hpod : pod.key = ⟨ns, t.name⟩ := hfetch _ pod (by simp [hτ])
    rw [OwnershipTask.key_edit, hpod]
    exact (hkey t ht).symm
  expected x hx hexpected := by
    obtain ⟨t, ht, he⟩ := h.expectations x hx key hexpected
    exact hkey t ht he

/-! ## Owners -/

/-- The rule set owns a target after its claim and not after its release. -/
theorem TaskDone.mem_owners_iff (h : TaskDone b ns ruleSet task τ w)
    (hstored : ∀ x ∈ τ, x.ReturnsStored) {pod : Pod} (hpod : w.pod? = some pod) :
    ruleSet ∈ pod.owners ↔ ∃ name, task = .claim name := by
  cases h with
  | mk _ _ hlast =>
    cases hlast with
    | absent m => cases hpod
    | vanished p m hc => cases hpod
    | unchanged p hc =>
      cases hpod
      exact task.mem_owners_edit_iff p
    | written p stored hc =>
      cases hpod
      obtain ⟨version, rfl⟩ := hstored ⟨.store (.updateTarget (task.edit ruleSet p).1), .ok pod⟩
        (by simp) _ _ rfl
      rw [Pod.owners_atVersion]
      exact task.mem_owners_edit_iff p

/-- Of the pods that were written, the rule set owns those that were claimed. -/
theorem CarriedOut.mem_owners_iff (h : CarriedOut b ns ruleSet tasks τ edits)
    (hstored : ∀ x ∈ τ, x.ReturnsStored) :
    ∀ e ∈ edits, ∀ pod, e.2.pod? = some pod → (ruleSet ∈ pod.owners ↔ ∃ name, e.1 = .claim name) := by
  induction h with
  | nil => simp
  | cons hd _ ih =>
    refine List.forall_mem_cons.2 ⟨fun pod hpod => ?_, ih fun x hx => ?_⟩
    · exact hd.mem_owners_iff (fun x hx => hstored x (List.mem_append_left _ hx)) hpod
    · exact hstored x (List.mem_append_right _ hx)

/-- Claimed targets are listed in the order of their tasks. -/
theorem pairwise_claimedTargets (h : (edits.map (·.1)).Pairwise OwnershipTask.Before) :
    ((claimedTargets edits).map (·.1)).Pairwise fun m n => compare m n = .lt := by
  rw [List.pairwise_map] at h ⊢
  refine h.filterMap _ fun e f hbefore p hp q hq => ?_
  obtain ⟨t, w⟩ := e
  obtain ⟨u, v⟩ := f
  cases hbefore with
  | releases | releaseFirst => cases hp
  | claims hlt =>
    obtain ⟨_, -, rfl⟩ := Option.map_eq_some_iff.1 hp
    obtain ⟨_, -, rfl⟩ := Option.map_eq_some_iff.1 hq
    exact hlt

/-! ## The whole plan -/

/-- The rule set is added by claims only, and a claim that wrote it arms its target. -/
theorem PlanRun.armedClaim {run : Except Failure (List (OwnershipTask × TargetEdit))}
    (h : PlanRun b ns ruleSet tasks τ run) (honce : (tasks.map (·.name)).Nodup) {u stored : Pod}
    (hτ : τ = before ++ ⟨.store (.updateTarget u), .ok stored⟩ :: after)
    (howner : ruleSet ∈ u.owners) : ArmedClaim ns ruleSet τ before u after := by
  obtain ⟨earlier, t, later, past, pod, rest, rfl, rfl, rfl, rfl, hrest⟩ := h.accepted hτ
  obtain ⟨name, rfl⟩ := (t.mem_owners_edit_iff pod).1 howner
  -- No later task has this name again.
  have hlater : ∀ x ∈ rest, x.call.expectation? ≠ some ⟨ns, name⟩ := by
    refine (hrest.leavesAlone fun v hv he => ?_).expected
    rw [List.map_append, List.map_cons] at honce
    have hname : name = v.name := (ObjectKey.mk.inj he).2
    refine (List.nodup_cons.1 (List.nodup_append.1 honce).2.1).1 ?_
    exact List.mem_map.2 ⟨v, hv, hname.symm⟩
  refine .mk hlater fun t log pass now htrace hnow hothers => ?_
  exact Expectations.exists_armed hothers hnow
    (htrace.trans (hτ.trans (List.append_cons _ _ _))) hlater t

/-- A run of the tasks ends with all of them done, or at the first that fails for good. -/
theorem PlanRun.syncEnds {run : Except Failure (List (OwnershipTask × TargetEdit))}
    (h : PlanRun b ns ruleSet tasks τ run) (horder : PlansInOrder recorded selected tasks)
    (hstored : ∀ x ∈ τ, x.ReturnsStored) :
    SyncEnds b ns ruleSet tasks τ (run.map fun edits => (claimedTargets edits).map (·.2)) := by
  cases h with
  | completed hdone =>
    refine .completed hdone (hdone.mem_owners_iff hstored) (pairwise_claimedTargets ?_)
      fun key hkey => hdone.worksOn.leavesAlone hkey
    rw [hdone.map_fst]
    exact horder.order
  | @stopped first last task done failed edits e htasks hdone hfailed =>
    -- All exchanges are about the tasks up to the failed one, and no later task has their names.
    have hworks : WorksOn ns ruleSet (first ++ [task]) (done ++ failed) :=
      (hdone.worksOn.mono (by simp +contextual)).append (hfailed.worksOn.1.mono (by simp))
    refine .stopped htasks rfl hdone hfailed (fun later hlater => ?_) fun key hkey => ?_
    · refine hworks.leavesAlone fun t ht he => ?_
      have hname : later.name = t.name := (ObjectKey.mk.inj he).2
      have honce := horder.once
      rw [htasks, List.append_cons, List.map_append] at honce
      exact (List.nodup_append.1 honce).2.2 _ (List.mem_map_of_mem ht) _
        (List.mem_map_of_mem hlater) hname.symm
    · refine hworks.leavesAlone fun t ht => hkey t ?_
      rw [htasks, List.append_cons]
      exact List.mem_append_left _ ht

/-- A selection is carried out in order, or up to the first target that fails; in any case each
claim that was written has armed its target. -/
theorem sync_all_in_order_or_stops (b : RetryBackoff) (ns ruleSet : String)
    (recorded : List String) (selected : SortedSet String) {τ : List Exchange}
    {res : Except Failure (List Pod)}
    (h : (carryOut b ns ruleSet (.ofSelection recorded selected)).Ends τ res)
    (hstored : ∀ x ∈ τ, x.ReturnsStored) :
    PlansInOrder recorded selected (ClaimPlan.ofSelection recorded selected).tasks ∧
      SyncEnds b ns ruleSet (ClaimPlan.ofSelection recorded selected).tasks τ res ∧
      (∀ x ∈ τ, x.call.concernsTargets = true) ∧
      ∀ before u stored after, τ = before ++ ⟨.store (.updateTarget u), .ok stored⟩ :: after →
        ruleSet ∈ u.owners → ArmedClaim ns ruleSet τ before u after := by
  have horder := plansInOrder recorded selected
  obtain ⟨run, hrun, rfl⟩ := planRun_of_carryOut h
  refine ⟨horder, hrun.syncEnds horder hstored, fun x hx => ?_, ?_⟩
  · exact (Pass.asks_carryOut b ns ruleSet _ _ _ h x hx).1
  · intro before u stored after hτ howner
    exact hrun.armedClaim horder.once hτ howner

end

namespace Syncing

def recorded : List String := ["p", "old", "gone", "old"]

def selected : SortedSet String := .ofList ["q", "p"]

def pod (name version : String) : Pod where
  metadata := { (default : Metadata) with
    name := some name, namespaceName := some "ns", resourceVersion := some version }
  others := []

def owned : Pod := (pod "old" "4").withOwners (.ofList ["r"])

def released : Pod := (owned.removeOwner "r").1

def claimed : Pod := ((pod "p" "2").addOwner "r").1

def completing : List Exchange :=
  [⟨.store (.getTarget ⟨"ns", "gone"⟩), .error (.notFound "")⟩,
    ⟨.store (.getTarget ⟨"ns", "old"⟩), .ok owned⟩,
    ⟨.store (.updateTarget released), .ok (released.atVersion "5")⟩,
    ⟨.store (.getTarget ⟨"ns", "p"⟩), .ok (pod "p" "1")⟩,
    ⟨.store (.updateTarget ((pod "p" "1").addOwner "r").1), .error (.conflict "")⟩,
    ⟨.sleep (RetryBackoff.standard.delay 1), ()⟩,
    ⟨.store (.getTarget ⟨"ns", "p"⟩), .ok (pod "p" "2")⟩,
    ⟨.store (.updateTarget claimed), .ok (claimed.atVersion "3")⟩,
    ⟨.arm ⟨"ns", "p"⟩ "2", ()⟩,
    ⟨.store (.getTarget ⟨"ns", "q"⟩), .error (.notFound "")⟩]

def stopping : List Exchange :=
  [⟨.store (.getTarget ⟨"ns", "gone"⟩), .error (.notFound "")⟩,
    ⟨.store (.getTarget ⟨"ns", "old"⟩), .error (.transient "down")⟩]

theorem ends_completing :
    (carryOut .standard "ns" "r" (.ofSelection recorded selected)).Ends completing
      (.ok [claimed.atVersion "3"]) :=
  .ask _ (.ask _ (.ask _ (.ask _ (.ask _ (.ask _ (.ask _ (.ask _ (.ask _ (.ask _ (.done _))))))))))

theorem ends_stopping :
    (carryOut .standard "ns" "r" (.ofSelection recorded selected)).Ends stopping
      (.error (.store (.transient "down"))) :=
  .ask _ (.ask _ (.failed _))

theorem returnsStored_completing : ∀ x ∈ completing, x.ReturnsStored := by
  rintro _ hx p stored rfl
  simp only [completing, List.mem_cons, List.not_mem_nil, or_false] at hx
  rcases hx with h | h | h | h | h | h | h | h | h | h <;> cases h <;> exact ⟨_, rfl⟩

theorem returnsStored_stopping : ∀ x ∈ stopping, x.ReturnsStored := by
  rintro _ hx p stored rfl
  simp only [stopping, List.mem_cons, List.not_mem_nil, or_false] at hx
  rcases hx with h | h <;> cases h

end Syncing

open Syncing in
/-- The theorem at a run that meets a conflict and goes on, and at one that stops. -/
theorem sync_claims_after_conflict_or_stops :
    (ClaimPlan.ofSelection recorded selected).tasks =
        [.release "gone", .release "old", .claim "p", .claim "q"] ∧
      SyncEnds .standard "ns" "r" (ClaimPlan.ofSelection recorded selected).tasks completing
        (.ok [claimed.atVersion "3"]) ∧
      ArmedClaim "ns" "r" completing (completing.take 7) claimed (completing.drop 8) ∧
      SyncEnds .standard "ns" "r" (ClaimPlan.ofSelection recorded selected).tasks stopping
        (.error (.store (.transient "down"))) := by
  have hsync := sync_all_in_order_or_stops .standard "ns" "r" recorded selected ends_completing
    returnsStored_completing
  have howner : "r" ∈ claimed.owners := by simp [claimed]
  exact ⟨by decide, hsync.2.1, hsync.2.2.2 _ _ _ _ rfl howner,
    (sync_all_in_order_or_stops .standard "ns" "r" recorded selected ends_stopping
      returnsStored_stopping).2.1⟩

end PodRules
