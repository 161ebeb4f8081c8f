import Mathlib.Data.List.Induction
import PodRules.Proofs.Notification.Tasks

/-!
A served queue does what its consumers do as tasks: every operation is a run of their steps until
nobody has to run (`exists_answers_serve`). Main statements: what is accepted is delivered once and in
order (`accepted_keys_delivered_in_order`), and no consumer sleeps while there is something to get
(`no_consumer_sleeps_on_ready_queue`).
-/

namespace PodRules

open KeyQueue QueueTasks

namespace ServedQueue

def tasks (c : ServedQueue) (woken : List Nat) : QueueTasks :=
  ⟨c.queue, c.permit, c.waiting, woken, c.started⟩

inductive Request where
  | push (key : ObjectKey)
  | pushAfter (key : ObjectKey) (millis : Nat)
  /-- A pop that waits for a limited time. -/
  | popWithin (millis : Nat)
  /-- A pop that waits in the background. -/
  | start
  | advance (millis : Nat)
  | shutDown
  deriving DecidableEq

def Request.keys : Request → List ObjectKey
  | .push key => [key]
  | .pushAfter key _ => [key]
  | _ => []

def Request.pushes (now : Nat) : Request → List DelayedPush
  | .push key => [⟨now, key⟩]
  | .pushAfter key millis => [⟨now + min millis Duration.longestWaitMillis, key⟩]
  | _ => []

def Request.isPop : Request → Bool
  | .popWithin _ => true
  | .start => true
  | _ => false

def perform (c : ServedQueue) : Request → List (Nat × Delivery) × ServedQueue
  | .push key => (c.push key).collect
  | .pushAfter key millis => (c.pushAfter key millis).collect
  | .popWithin millis =>
    let (ended, delivery?) := c.popWithin millis
    let (others, rest) := ended.collect
    ((delivery?.map (c.started, ·)).toList ++ others, rest)
  | .start => c.start.collect
  | .advance millis => (c.advance millis).collect
  | .shutDown => c.shutDown.collect

def serve (requests : List Request) : List (Nat × Delivery) × ServedQueue :=
  requests.foldl (fun a r => ((a.1 ++ (a.2.perform r).1), (a.2.perform r).2)) ([], .empty)

def asked : ServedQueue → List Request → List DelayedPush
  | _, [] => []
  | c, r :: requests => r.pushes c.now ++ asked (c.perform r).2 requests

def Punctual (c : ServedQueue) : Prop := ∀ p ∈ c.delayed, c.now ≤ p.due

/-- Pushes happened in the order in which they came due, and what is delayed still is not overdue. -/
structure Timely (c d : ServedQueue) (done : List DelayedPush) : Prop where
  chronological : done.Pairwise fun p q => p.due ≤ q.due
  due : ∀ p ∈ done, c.now ≤ p.due ∧ p.due ≤ d.now
  clock : c.now ≤ d.now
  punctual : d.Punctual

structure Pushes (asked : List DelayedPush) (c d : ServedQueue) (done : List DelayedPush) :
    Prop where
  all : (done ++ d.delayed).Perm (c.delayed ++ asked)
  timely : c.Punctual → Timely c d done

structure Unfolds (asked : List DelayedPush) (c d : ServedQueue) (log : List QueueEvent)
    (done : List DelayedPush) : Prop where
  leads : Leads (c.tasks []) log (d.tasks [])
  delivered : d.delivered = c.delivered ++ servedIn log
  stays : leftIn log = []
  pushed : pushedIn log = done.map (·.key)
  pushes : Pushes asked c d done

variable {c d e : ServedQueue} {reqs more done late : List DelayedPush}
  {log rest : List QueueEvent}

theorem servedIn_append (log rest : List QueueEvent) :
    servedIn (log ++ rest) = servedIn log ++ servedIn rest := List.filterMap_append

theorem pushedIn_append (log rest : List QueueEvent) :
    pushedIn (log ++ rest) = pushedIn log ++ pushedIn rest := List.filterMap_append

theorem leftIn_append (log rest : List QueueEvent) :
    leftIn (log ++ rest) = leftIn log ++ leftIn rest := List.filterMap_append

/-! ## Pushes in time -/

/-- What happens later was not overdue in between, so it comes due later. -/
theorem Timely.trans (h : Timely c d done) (hrest : Timely d e late) :
    Timely c e (done ++ late) := by
  refine ⟨?_, ?_, Nat.le_trans h.clock hrest.clock, hrest.punctual⟩
  · apply List.pairwise_append.2
    refine ⟨h.chronological, hrest.chronological, ?_⟩
    intro p hp q hq
    exact Nat.le_trans (h.due p hp).2 (hrest.due q hq).1
  · intro p hp
    rcases List.mem_append.1 hp with hp | hp
    · obtain ⟨hearly, hlate⟩ := h.due p hp
      exact ⟨hearly, Nat.le_trans hlate hrest.clock⟩
    · obtain ⟨hearly, hlate⟩ := hrest.due p hp
      exact ⟨Nat.le_trans h.clock hearly, hlate⟩

theorem Pushes.refl (c : ServedQueue) : Pushes [] c c [] := by
  refine ⟨by simp, ?_⟩
  intro hc
  refine ⟨.nil, ?_, Nat.le_refl _, hc⟩
  intro p hp
  cases hp

/-- Pushes that are delayed after one part happen or are delayed in the next. -/
theorem Pushes.trans (h : Pushes reqs c d done) (hrest : Pushes more d e late) :
    Pushes (reqs ++ more) c e (done ++ late) := by
  refine ⟨?_, ?_⟩
  · have hfirst := h.all.append_right more
    have hsecond := hrest.all.append_left done
    simp only [List.append_assoc] at hfirst hsecond ⊢
    exact hsecond.trans hfirst
  · intro hc
    have hfirst := h.timely hc
    exact hfirst.trans (hrest.timely hfirst.punctual)

/-- A push that happens at once. -/
theorem pushes_now (hdelayed : d.delayed = c.delayed) (hnow : d.now = c.now)
    (keys : List ObjectKey) :
    Pushes (keys.map (⟨c.now, ·⟩)) c d (keys.map (⟨c.now, ·⟩)) := by
  refine ⟨?_, ?_⟩
  · rw [hdelayed]
    exact List.perm_append_comm
  · intro hc
    refine ⟨?_, ?_, Nat.le_of_eq hnow.symm, ?_⟩
    · rw [List.pairwise_map]
      exact List.pairwise_of_forall fun _ _ => Nat.le_refl _
    · intro p hp
      obtain ⟨key, -, rfl⟩ := List.mem_map.1 hp
      exact ⟨Nat.le_refl _, Nat.le_of_eq hnow.symm⟩
    · rw [Punctual, hdelayed, hnow]
      exact hc

theorem Pushes.congr (h : Pushes reqs c d done) (hdelayed : e.delayed = d.delayed)
    (hnow : e.now = d.now) : Pushes reqs c e done := by
  have hnone := h.trans (pushes_now hdelayed hnow [])
  simpa using hnone

theorem Unfolds.refl (c : ServedQueue) : Unfolds [] c c [] [] :=
  ⟨.here, by simp [servedIn], rfl, rfl, .refl c⟩

/-- Requests served one after the other are steps of the tasks one after the other. -/
theorem Unfolds.trans (h : Unfolds reqs c d log done) (hrest : Unfolds more d e rest late) :
    Unfolds (reqs ++ more) c e (log ++ rest) (done ++ late) := by
  refine ⟨h.leads.append hrest.leads, ?_, ?_, ?_, h.pushes.trans hrest.pushes⟩
  · rw [hrest.delivered, h.delivered, servedIn_append, List.append_assoc]
  · rw [leftIn_append, h.stays, hrest.stays, List.append_nil]
  · rw [pushedIn_append, h.pushed, hrest.pushed, List.map_append]

/-! ## One look -/

theorem look_of_some {id : Nat} {a : Delivery} (h : c.queue.look? = some a) :
    c.look id =
      { c with queue := c.queue.after .pop, delivered := c.delivered ++ [(id, a)] } := by
  cases hp : c.queue.pop? with
  | some r =>
    obtain ⟨k, q⟩ := r
    obtain rfl : Delivery.key k = a := by simpa [look?, hp] using h
    simp [look, hp, after]
  | none =>
    have hd : c.queue.shuttingDown = true ∧ Delivery.closed = a := by simpa [look?, hp] using h
    simp [look, hp, hd.1, ← hd.2, after]

theorem look_of_none {id : Nat} (h : c.queue.look? = none) :
    c.look id = { c with waiting := c.waiting ++ [id] } := by
  obtain ⟨hd, hempty⟩ := look?_eq_none_iff.1 h
  simp [look, pop?_eq_none_iff.2 hempty, hd]

theorem attend_of_some {id : Nat} {a : Delivery} (h : c.queue.look? = some a) :
    c.attend id =
      { c with queue := c.queue.after .pop, delivered := c.delivered ++ [(id, a)] } := by
  simp [attend, look_of_some h]

/-- The permit makes no difference to a consumer that finds nothing. -/
theorem attend_of_none {id : Nat} (h : c.queue.look? = none) :
    c.attend id = { c with permit := false, waiting := c.waiting ++ [id] } := by
  have hagain : { c with permit := false }.look id =
      { c with permit := false, waiting := c.waiting ++ [id] } :=
    look_of_none (c := { c with permit := false }) h
  cases hp : c.permit with
  | true => simp [attend, look_of_none h, hp, hagain]
  | false => simp [attend, look_of_none h, hp]

structure KeepsTime (c d : ServedQueue) : Prop where
  delayed : d.delayed = c.delayed
  now : d.now = c.now
  started : d.started = c.started

theorem KeepsTime.trans (h : KeepsTime c d) (h' : KeepsTime d e) : KeepsTime c e :=
  ⟨h'.delayed.trans h.delayed, h'.now.trans h.now, h'.started.trans h.started⟩

/-- A consumer that attends takes its turn. -/
theorem exists_turn_attend (c : ServedQueue) (id : Nat) (woken : List Nat) :
    ∃ e, Turn id (c.tasks woken) e ((c.attend id).tasks woken) ∧
      (c.attend id).delivered = c.delivered ++ servedIn [e] ∧ pushedIn [e] = [] ∧
      leftIn [e] = [] ∧ KeepsTime c (c.attend id) := by
  cases h : c.queue.look? with
  | some a =>
    rw [attend_of_some h]
    refine ⟨.served id a, ?_, rfl, rfl, rfl, ⟨rfl, rfl, rfl⟩⟩
    exact turn_of_some (s := c.tasks woken) h
  | none =>
    rw [attend_of_none h]
    refine ⟨.waited id, ?_, ?_, rfl, rfl, ⟨rfl, rfl, rfl⟩⟩
    · exact turn_of_none (s := c.tasks woken) h
    · simp [servedIn, QueueEvent.served?]

/-! ## The operations -/

structure Runs (woken : List Nat) (c d : ServedQueue) (log : List QueueEvent) : Prop where
  leads : Leads (c.tasks woken) log (d.tasks [])
  delivered : d.delivered = c.delivered ++ servedIn log
  stays : leftIn log = []
  time : KeepsTime c d

/-- The woken consumers look at the queue one after the other. -/
theorem exists_runs_foldl_attend (c : ServedQueue) (woken : List Nat) :
    ∃ log, Runs woken c (woken.foldl attend c) log ∧ pushedIn log = [] := by
  induction woken generalizing c with
  | nil => exact ⟨[], ⟨.here, by simp [servedIn], rfl, ⟨rfl, rfl, rfl⟩⟩, rfl⟩
  | cons id ids ih =>
    obtain ⟨e, hturn, hdelivered, hpushed, hstays, htime⟩ := exists_turn_attend c id ids
    obtain ⟨log, hrest, hnone⟩ := ih (c.attend id)
    refine ⟨e :: log, ⟨hrest.leads.cons (.runs rfl hturn), ?_, ?_, htime.trans hrest.time⟩, ?_⟩
    · rw [List.foldl_cons, hrest.delivered, hdelivered, List.append_assoc, ← servedIn_append]
      rfl
    · exact (leftIn_append [e] log).trans (by rw [hstays, hrest.stays, List.nil_append])
    · exact (pushedIn_append [e] log).trans (by rw [hpushed, hnone, List.nil_append])

/-- A step may wake consumers, which run then. -/
theorem exists_runs_of_step {ev : QueueEvent} {woken : List Nat}
    (hst : Step (c.tasks []) ev (d.tasks woken)) (hev : ev.served? = none)
    (hleft : ev.left? = none) (hdelivered : d.delivered = c.delivered) (htime : KeepsTime c d) :
    ∃ log, Runs [] c (woken.foldl attend d) log ∧ pushedIn log = ev.pushed?.toList := by
  obtain ⟨log, hruns, hnone⟩ := exists_runs_foldl_attend d woken
  refine ⟨ev :: log, ⟨hruns.leads.cons hst, ?_, ?_, htime.trans hruns.time⟩, ?_⟩
  · rw [hruns.delivered, hdelivered]
    simp [servedIn, hev]
  · rw [show ev :: log = [ev] ++ log from rfl, leftIn_append, hruns.stays, List.append_nil]
    simp [leftIn, hleft]
  · rw [show ev :: log = [ev] ++ log from rfl, pushedIn_append, hnone, List.append_nil]
    cases ev <;> rfl

/-- A push, with the consumer that it wakes, is made of steps of the tasks. -/
theorem exists_runs_push (c : ServedQueue) (key : ObjectKey) :
    ∃ log, Runs [] c (c.push key) log ∧ pushedIn log = [key] := by
  cases ha : c.queue.accepts key with
  | false =>
    have hst : Step (c.tasks []) (.pushed key) ({ c with queue := c.queue.push key }.tasks []) :=
      .refused key ha
    rw [ServedQueue.push, ha]
    exact exists_runs_of_step hst rfl rfl rfl ⟨rfl, rfl, rfl⟩
  | true =>
    have hst : Step (c.tasks []) (.pushed key)
        ({ c.tasks [] with queue := c.queue.push key }.notifyOne) := .accepted key ha
    rw [ServedQueue.push, ha]
    cases hw : c.waiting with
    | nil =>
      have hnext : Step (c.tasks []) (.pushed key)
          ({ c with queue := c.queue.push key, permit := true }.tasks []) := by
        simpa [QueueTasks.notifyOne, tasks, hw] using hst
      simpa [notifyOne, hw, QueueEvent.pushed?] using
        exists_runs_of_step hnext rfl rfl rfl ⟨rfl, rfl, rfl⟩
    | cons id ids =>
      have hnext : Step (c.tasks []) (.pushed key)
          ({ c with queue := c.queue.push key, waiting := ids }.tasks [id]) := by
        simpa [QueueTasks.notifyOne, tasks, hw] using hst
      simpa [notifyOne, hw, QueueEvent.pushed?] using
        exists_runs_of_step hnext rfl rfl rfl ⟨rfl, rfl, rfl⟩

theorem exists_runs_shutDown (c : ServedQueue) :
    ∃ log, Runs [] c c.shutDown log ∧ pushedIn log = [] := by
  have hst : Step (c.tasks []) .shutDown
      ({ c with queue := c.queue.shutDown, waiting := [] }.tasks c.waiting) := .shutDown
  exact exists_runs_of_step hst rfl rfl rfl ⟨rfl, rfl, rfl⟩

/-- What is pushed without a delay was asked for at the moment at which it is pushed. -/
theorem Runs.unfolds {keys : List ObjectKey} (h : Runs [] c d log) (hpushed : pushedIn log = keys) :
    Unfolds (keys.map (⟨c.now, ·⟩)) c d log (keys.map (⟨c.now, ·⟩)) := by
  refine ⟨h.leads, h.delivered, h.stays, ?_, pushes_now h.time.delayed h.time.now keys⟩
  rw [hpushed, List.map_map]
  exact (List.map_id keys).symm

theorem keepsTime_push (c : ServedQueue) (key : ObjectKey) : KeepsTime c (c.push key) := by
  obtain ⟨log, hlog, -⟩ := exists_runs_push c key
  exact hlog.time

theorem keepsTime_attend (c : ServedQueue) (id : Nat) : KeepsTime c (c.attend id) := by
  obtain ⟨e, -, -, -, -, htime⟩ := exists_turn_attend c id []
  exact htime

theorem exists_unfolds_start (c : ServedQueue) : ∃ log, Unfolds [] c c.start log [] := by
  obtain ⟨e, hturn, hdelivered, hpushed, hstays, htime⟩ :=
    exists_turn_attend { c with started := c.started + 1 } c.started []
  have hst : Step (c.tasks []) e (c.start.tasks []) := .starts rfl hturn
  exact ⟨[e], .step .here hst, hdelivered, hstays, hpushed,
    (Pushes.refl c).congr htime.delayed htime.now⟩

/-- A push after a delay is noted with its due time, or made at once when there is no delay. -/
theorem exists_unfolds_pushAfter (c : ServedQueue) (key : ObjectKey) (millis : Nat) :
    ∃ log done, Unfolds ((Request.pushAfter key millis).pushes c.now) c (c.pushAfter key millis)
      log done := by
  unfold pushAfter
  split
  next hzero =>
    subst hzero
    obtain ⟨log, hlog, hpushed⟩ := exists_runs_push c key
    refine ⟨log, [⟨c.now, key⟩], ?_⟩
    simpa [Request.pushes] using hlog.unfolds hpushed
  · refine ⟨[], [], .here, by simp [servedIn], rfl, rfl, .refl _, ?_⟩
    intro hc
    refine ⟨.nil, ?_, Nat.le_refl _, ?_⟩
    · intro p hp
      cases hp
    · intro p hp
      rcases List.mem_append.1 hp with hp | hp
      · exact hc p hp
      · obtain rfl := List.mem_singleton.1 hp
        exact Nat.le_add_right ..

theorem nextDue?_eq_none {ds : List DelayedPush} (h : nextDue? ds = none) : ds = [] := by
  cases ds with
  | nil => rfl
  | cons d ds =>
    unfold nextDue? at h
    split at h
    · cases h
    · split at h <;> cases h

/-- The push that is due next is one of the delayed ones, and none is due before it. -/
theorem nextDue?_spec {ds others : List DelayedPush} {p : DelayedPush}
    (h : nextDue? ds = some (p, others)) :
    ds.Perm (p :: others) ∧ ∀ o ∈ others, p.due ≤ o.due := by
  induction ds generalizing p others with
  | nil => cases h
  | cons d ds ih =>
    unfold nextDue? at h
    split at h
    next hnone =>
      cases h
      simp [nextDue?_eq_none hnone]
    next e es hsome =>
      obtain ⟨hperm, hfirst⟩ := ih hsome
      split at h
      next hlt =>
        cases h
        refine ⟨(hperm.cons d).trans (.swap ..), fun o ho => ?_⟩
        rcases List.mem_cons.1 ho with rfl | ho
        · exact Nat.le_of_lt hlt
        · exact hfirst o ho
      next hle =>
        cases h
        refine ⟨.refl _, fun o ho => ?_⟩
        have hleast : e.due ≤ o.due := by
          rcases List.mem_cons.1 (hperm.mem_iff.1 ho) with rfl | ho
          · exact Nat.le_refl _
          · exact hfirst o ho
        omega

/-- The clock may move on to the time of the push that is due next. -/
theorem unfolds_passing {limit : Nat} (h : ∀ p ∈ c.delayed, limit ≤ p.due) :
    Unfolds [] c { c with now := max c.now limit } [] [] := by
  refine ⟨.here, by simp [servedIn], rfl, rfl, by simp, ?_⟩
  intro hc
  refine ⟨.nil, ?_, Nat.le_max_left .., ?_⟩
  · intro p hp
    cases hp
  · intro p hp
    exact Nat.max_le.2 ⟨hc p hp, h p hp⟩

/-- The next delayed push happens. -/
theorem exists_unfolds_due {p : DelayedPush} {others : List DelayedPush}
    (h : nextDue? c.delayed = some (p, others)) : ∃ log, Unfolds [] c
      ({ c with delayed := others, now := max c.now p.due }.push p.key) log [p] := by
  obtain ⟨hperm, hfirst⟩ := nextDue?_spec h
  obtain ⟨log, hruns, hpushed⟩ :=
    exists_runs_push { c with delayed := others, now := max c.now p.due } p.key
  refine ⟨log, hruns.leads, hruns.delivered, hruns.stays, hpushed, ?_, ?_⟩
  · rw [hruns.time.delayed, List.append_nil]
    exact hperm.symm
  · intro hc
    have hdue : c.now ≤ p.due := hc p (hperm.mem_iff.2 (List.mem_cons_self ..))
    refine ⟨List.pairwise_singleton .., ?_, ?_, ?_⟩
    · intro q hq
      obtain rfl := List.mem_singleton.1 hq
      rw [hruns.time.now]
      exact ⟨hdue, Nat.le_max_right ..⟩
    · rw [hruns.time.now]
      exact Nat.le_max_left ..
    · rw [Punctual, hruns.time.delayed, hruns.time.now]
      intro o ho
      exact Nat.max_le.2 ⟨hc o (hperm.mem_iff.2 (List.mem_cons_of_mem _ ho)), hfirst o ho⟩

/-- While the clock runs, delayed pushes happen when they are due. -/
theorem exists_unfolds_runUntil (stop : ServedQueue → Bool) (limit : Nat) {steps : Nat}
    (h : c.delayed.length ≤ steps) :
    ∃ log done, Unfolds [] c (runUntil stop limit steps c) log done := by
  induction steps generalizing c with
  | zero =>
    have hempty : c.delayed = [] := List.length_eq_zero_iff.1 (Nat.le_zero.1 h)
    unfold runUntil
    split
    · exact ⟨[], [], .refl c⟩
    · exact ⟨[], [], unfolds_passing (by simp [hempty])⟩
  | succ steps ih =>
    unfold runUntil
    split
    · exact ⟨[], [], .refl c⟩
    · split
      next hnone => exact ⟨[], [], unfolds_passing (by simp [nextDue?_eq_none hnone])⟩
      next p others hsome =>
        obtain ⟨hperm, hfirst⟩ := nextDue?_spec hsome
        split
        next hle =>
          obtain ⟨log, hlog⟩ := exists_unfolds_due hsome
          have hothers : ({ c with delayed := others, now := max c.now p.due }.push
              p.key).delayed = others := (keepsTime_push _ p.key).delayed
          have hlen := hperm.length_eq
          obtain ⟨rest, late, hrest⟩ := ih (c := { c with
            delayed := others, now := max c.now p.due }.push p.key) (by
              rw [hothers]
              simp only [List.length_cons] at hlen
              omega)
          exact ⟨log ++ rest, [p] ++ late, hlog.trans hrest⟩
        next hlt =>
          refine ⟨[], [], unfolds_passing fun o ho => ?_⟩
          rcases List.mem_cons.1 (hperm.mem_iff.1 ho) with rfl | ho
          · omega
          · exact Nat.le_trans (by omega) (hfirst o ho)

theorem started_runUntil (stop : ServedQueue → Bool) (limit steps : Nat) (c : ServedQueue) :
    (runUntil stop limit steps c).started = c.started := by
  induction steps generalizing c with
  | zero =>
    unfold runUntil
    split
    · rfl
    · rfl
  | succ steps ih =>
    unfold runUntil
    split
    · rfl
    · split
      next => rfl
      next p others _ =>
        split
        · rw [ih]
          exact (keepsTime_push { c with delayed := others, now := max c.now p.due } p.key).started
        · rfl

/-- The clock runs to the limit unless the condition stops it before. -/
theorem runUntil_ends (stop : ServedQueue → Bool) {limit : Nat} (h : c.now ≤ limit) (steps : Nat) :
    (stop (runUntil stop limit steps c) = true ∧ (runUntil stop limit steps c).now ≤ limit) ∨
      (runUntil stop limit steps c).now = limit := by
  induction steps generalizing c with
  | zero =>
    unfold runUntil
    split
    next hstop => exact .inl ⟨hstop, h⟩
    next => exact .inr (Nat.max_eq_right h)
  | succ steps ih =>
    unfold runUntil
    split
    next hstop => exact .inl ⟨hstop, h⟩
    next =>
      split
      next => exact .inr (Nat.max_eq_right h)
      next p others _ =>
        split
        next hle =>
          have hkept := keepsTime_push { c with delayed := others, now := max c.now p.due } p.key
          apply ih
          rw [hkept.now]
          exact Nat.max_le.2 ⟨h, hle⟩
        next => exact .inr (Nat.max_eq_right h)

/-! ## Requests one after the other -/

/-- A delivery is found by its consumer when no consumer has two. -/
theorem perm_lookup_filter {α : Type} {ds : List (Nat × α)} (h : (ds.map (·.1)).Nodup) (id : Nat) :
    (((ds.lookup id).map (id, ·)).toList ++ ds.filter (·.1 ≠ id)).Perm ds := by
  induction ds with
  | nil => exact .refl _
  | cons d ds ih =>
    obtain ⟨hne, hrest⟩ := List.nodup_cons.1 h
    obtain ⟨j, a⟩ := d
    by_cases hj : j = id
    · subst hj
      have hkeep : ds.filter (·.1 ≠ j) = ds := List.filter_eq_self.2 fun e he => by
        simpa using fun hje => hne (List.mem_map.2 ⟨e, he, hje⟩)
      rw [List.filter_cons_of_neg (by simp), hkeep]
      simp [List.lookup_cons_self]
    · have hlook : ((j, a) :: ds).lookup id = ds.lookup id := by
        have hother : (id == j) = false := by simpa using Ne.symm hj
        rw [List.lookup_cons, hother]
      rw [hlook, List.filter_cons_of_pos (by simpa using hj)]
      exact List.perm_middle.trans ((ih hrest).cons _)

structure Answers (asked : List DelayedPush) (c : ServedQueue)
    (answer : List (Nat × Delivery) × ServedQueue) (log : List QueueEvent)
    (done : List DelayedPush) : Prop where
  leads : Leads (c.tasks []) log (answer.2.tasks [])
  handed : answer.1.Perm (servedIn log)
  delivered : answer.2.delivered = []
  pushed : pushedIn log = done.map (·.key)
  pushes : Pushes asked c answer.2 done

/-- Where nothing was left to hand over, what is left now was served since. -/
theorem Unfolds.delivered_eq (h : Unfolds reqs c d log done) (hc : c.delivered = []) :
    d.delivered = servedIn log := by
  rw [h.delivered, hc, List.nil_append]

theorem Unfolds.answers (h : Unfolds reqs c d log done) (hc : c.delivered = []) :
    Answers reqs c d.collect log done := by
  refine ⟨h.leads, ?_, rfl, h.pushed, h.pushes.congr rfl rfl⟩
  exact h.delivered_eq hc ▸ sortBy_perm d.delivered

/-- What a request does to the clock, and what becomes of the consumer that it starts: one that
waits for a limited time is served before the time is over or leaves then. -/
def Request.Fulfilled (c : ServedQueue) (answer : List (Nat × Delivery) × ServedQueue)
    (log : List QueueEvent) : Request → Prop
  | .popWithin millis =>
    (∃ a, (c.started, a) ∈ answer.1 ∧ answer.2.now ≤ c.now + millis) ∨
      (QueueEvent.left c.started ∈ log ∧ answer.2.now = c.now + millis)
  | .start =>
    ((∃ a, (c.started, a) ∈ answer.1) ∨ c.started ∈ answer.2.waiting) ∧ answer.2.now = c.now
  | .advance millis => answer.2.now = c.now + millis
  | _ => answer.2.now = c.now

/-- A consumer that does not wait any more leaves those that do. -/
theorem exists_leads_leave (c : ServedQueue) (id : Nat) : ∃ log, Leads (c.tasks []) log
    ({ c with waiting := c.waiting.filter (· ≠ id) }.tasks []) ∧ servedIn log = [] ∧
      pushedIn log = [] ∧ (id ∈ c.waiting → .left id ∈ log) := by
  by_cases hid : id ∈ c.waiting
  · refine ⟨[.left id], .step .here (.leaves (s := c.tasks []) id hid), rfl, rfl, ?_⟩
    exact fun _ => List.mem_singleton.2 rfl
  · refine ⟨[], ?_, rfl, rfl, fun h => absurd h hid⟩
    have hsame : c.waiting.filter (· ≠ id) = c.waiting := List.filter_eq_self.2 fun j hj => by
      simpa using fun (he : j = id) => hid (he ▸ hj)
    rw [hsame]
    exact .here

/-- A consumer that has started since and was not served waits. -/
theorem mem_waiting_of_unserved (h : Leads .start log (c.tasks [])) (hc : c.delivered = [])
    (hunfolds : Unfolds reqs c d rest done) {id : Nat} (hid : c.started ≤ id)
    (hstarted : id < d.started) (hnone : d.delivered.lookup id = none) : id ∈ d.waiting := by
  obtain ⟨hserved, hleft, -⟩ := h.placed.not_mem_of_started_le hid
  have hunserved : id ∉ idsServedIn rest := by
    intro hmem
    obtain ⟨⟨j, a⟩, hja, rfl⟩ := List.mem_map.1 hmem
    rw [← hunfolds.delivered_eq hc] at hja
    exact absurd rfl (bne_iff_ne.1 (List.lookup_eq_none_iff.1 hnone _ hja))
  -- Every consumer that has started is in one of these places.
  have hplaced := (h.append hunfolds.leads).placed.once.mem_iff.2 (List.mem_range.2 hstarted)
  rw [leftIn_append, hunfolds.stays, List.append_nil] at hplaced
  simp only [idsServedIn, servedIn_append, List.map_append, List.mem_append] at hplaced
  rcases hplaced with (((hmem | hmem) | hmem) | hmem) | hmem
  · exact absurd hmem hserved
  · exact absurd hmem hunserved
  · exact absurd hmem hleft
  · cases hmem
  · exact hmem

/-- No consumer is served twice while requests are carried out. -/
theorem nodup_delivered (h : Leads .start log (c.tasks [])) (hc : c.delivered = [])
    (hunfolds : Unfolds reqs c d rest done) : (d.delivered.map (·.1)).Nodup := by
  have hall := (h.append hunfolds.leads).placed.nodup
  simp only [idsServedIn, servedIn_append, ← hunfolds.delivered_eq hc, List.map_append,
    List.nodup_append] at hall
  exact hall.1.1.1.2.1

/-- A limited wait up to its end, where its consumer leaves. -/
def waitWithin (c : ServedQueue) (millis : Nat) : ServedQueue :=
  runUntil (fun d => (d.deliveryOf? c.started).isSome) (c.now + millis) c.start.delayed.length
    c.start

theorem perform_popWithin (c : ServedQueue) (millis : Nat) :
    c.perform (.popWithin millis) =
      ((((c.waitWithin millis).delivered.lookup c.started).map (c.started, ·)).toList ++
        sortBy (fun a b => decide (a.1 ≤ b.1))
          ((c.waitWithin millis).delivered.filter (·.1 ≠ c.started)),
      { c.waitWithin millis with
        waiting := (c.waitWithin millis).waiting.filter (· ≠ c.started), delivered := [] }) := rfl

theorem exists_unfolds_waitWithin (c : ServedQueue) (millis : Nat) :
    ∃ log done, Unfolds [] c (c.waitWithin millis) log done := by
  obtain ⟨first, hstart⟩ := exists_unfolds_start c
  obtain ⟨second, done, hwait⟩ := exists_unfolds_runUntil (c := c.start)
    (fun d => (d.deliveryOf? c.started).isSome) (c.now + millis) (Nat.le_refl _)
  exact ⟨first ++ second, [] ++ done, hstart.trans hwait⟩

/-- By the end of a limited wait its consumer was served, or it has waited for all of the time. -/
theorem waitWithin_ends (h : Leads .start log (c.tasks [])) (hc : c.delivered = []) {millis : Nat}
    (hunfolds : Unfolds [] c (c.waitWithin millis) rest done) :
    (∃ a, (c.waitWithin millis).delivered.lookup c.started = some a ∧
        (c.waitWithin millis).now ≤ c.now + millis) ∨
      ((c.waitWithin millis).delivered.lookup c.started = none ∧
        c.started ∈ (c.waitWithin millis).waiting ∧
        (c.waitWithin millis).now = c.now + millis) := by
  have hkept := keepsTime_attend { c with started := c.started + 1 } c.started
  have hlimit : c.start.now ≤ c.now + millis := by
    rw [show c.start.now = c.now from hkept.now]
    exact Nat.le_add_right ..
  have hends : ((c.waitWithin millis).delivered.lookup c.started).isSome = true ∧
      (c.waitWithin millis).now ≤ c.now + millis ∨ (c.waitWithin millis).now = c.now + millis :=
    runUntil_ends (fun d => (d.deliveryOf? c.started).isSome) hlimit c.start.delayed.length
  have hstarted : (c.waitWithin millis).started = c.started + 1 :=
    (started_runUntil _ _ _ c.start).trans hkept.started
  cases hlook : (c.waitWithin millis).delivered.lookup c.started with
  | some a =>
    refine .inl ⟨a, rfl, ?_⟩
    rcases hends with ⟨-, hle⟩ | heq
    · exact hle
    · exact Nat.le_of_eq heq
  | none =>
    rw [hlook] at hends
    have hlast : c.started < (c.waitWithin millis).started := by
      rw [hstarted]
      exact Nat.lt_succ_self _
    refine .inr ⟨rfl, mem_waiting_of_unserved h hc hunfolds (Nat.le_refl _) hlast hlook, ?_⟩
    exact hends.resolve_left fun hstop => Bool.false_ne_true hstop.1

/-- A consumer that waits for a limited time is served within it, or leaves when it is over. -/
theorem exists_answers_popWithin (h : Leads .start log (c.tasks [])) (hc : c.delivered = [])
    (millis : Nat) : ∃ rest done, Answers [] c (c.perform (.popWithin millis)) rest done ∧
      (Request.popWithin millis).Fulfilled c (c.perform (.popWithin millis)) rest := by
  obtain ⟨rest, done, hwait⟩ := exists_unfolds_waitWithin c millis
  obtain ⟨last, hleave, hserved, hpushed, hleft⟩ :=
    exists_leads_leave (c.waitWithin millis) c.started
  rw [perform_popWithin]
  refine ⟨rest ++ last, done, ⟨hwait.leads.append hleave, ?_, rfl, ?_,
    hwait.pushes.congr rfl rfl⟩, ?_⟩
  · rw [servedIn_append, hserved, List.append_nil, ← hwait.delivered_eq hc]
    exact ((sortBy_perm _).append_left _).trans
      (perm_lookup_filter (nodup_delivered h hc hwait) c.started)
  · rw [pushedIn_append, hpushed, List.append_nil]
    exact hwait.pushed
  · rcases waitWithin_ends h hc hwait with ⟨a, hlook, hnow⟩ | ⟨-, hwaits, hnow⟩
    · refine .inl ⟨a, List.mem_append_left _ ?_, hnow⟩
      rw [hlook]
      exact List.mem_singleton.2 rfl
    · exact .inr ⟨List.mem_append_right _ (hleft hwaits), hnow⟩

theorem exists_answers_start (hc : c.delivered = []) :
    ∃ rest done, Answers [] c (c.perform .start) rest done ∧
      Request.start.Fulfilled c (c.perform .start) rest := by
  obtain ⟨rest, hrest⟩ := exists_unfolds_start c
  have hkept := keepsTime_attend { c with started := c.started + 1 } c.started
  refine ⟨rest, [], hrest.answers hc, ?_, hkept.now⟩
  cases hl : c.queue.look? with
  | some a =>
    have hstart : c.start.delivered = c.delivered ++ [(c.started, a)] := by
      rw [start, attend_of_some (c := { c with started := c.started + 1 }) hl]
    refine .inl ⟨a, (sortBy_perm _).mem_iff.2 ?_⟩
    rw [hstart]
    exact List.mem_append_right _ (List.mem_singleton.2 rfl)
  | none =>
    have hstart : c.start.waiting = c.waiting ++ [c.started] := by
      rw [start, attend_of_none (c := { c with started := c.started + 1 }) hl]
    refine .inr ?_
    show c.started ∈ c.start.waiting
    rw [hstart]
    exact List.mem_append_right _ (List.mem_singleton.2 rfl)

/-- What a request gives out is what consumers got while it was carried out. -/
theorem exists_answers_perform (h : Leads .start log (c.tasks [])) (hc : c.delivered = [])
    (r : Request) : ∃ rest done, Answers (r.pushes c.now) c (c.perform r) rest done ∧
      r.Fulfilled c (c.perform r) rest := by
  cases r with
  | push key =>
    obtain ⟨rest, hrest, hpushed⟩ := exists_runs_push c key
    exact ⟨rest, _, (hrest.unfolds hpushed).answers hc, hrest.time.now⟩
  | pushAfter key millis =>
    obtain ⟨rest, done, hrest⟩ := exists_unfolds_pushAfter c key millis
    refine ⟨rest, done, hrest.answers hc, ?_⟩
    show (c.pushAfter key millis).now = c.now
    unfold pushAfter
    split
    · exact (keepsTime_push c key).now
    · rfl
  | popWithin millis => exact exists_answers_popWithin h hc millis
  | start => exact exists_answers_start hc
  | advance millis =>
    obtain ⟨rest, done, hrest⟩ := exists_unfolds_runUntil (c := c) (fun _ => false)
      (c.now + millis) (Nat.le_refl _)
    refine ⟨rest, done, hrest.answers hc, ?_⟩
    rcases runUntil_ends (fun _ => false) (Nat.le_add_right c.now millis) c.delayed.length with
      ⟨hstop, -⟩ | heq
    · cases hstop
    · exact heq
  | shutDown =>
    obtain ⟨rest, hrest, hpushed⟩ := exists_runs_shutDown c
    exact ⟨rest, _, (hrest.unfolds hpushed).answers hc, hrest.time.now⟩

theorem punctual_empty : Punctual .empty := by
  intro p hp
  cases hp

/-- A served queue that nothing was asked of. -/
theorem answers_empty : Answers [] .empty ([], .empty) [] [] :=
  ⟨.here, .refl _, rfl, rfl, .refl _⟩

theorem serve_snoc (requests : List Request) (r : Request) :
    serve (requests ++ [r]) = ((serve requests).1 ++ ((serve requests).2.perform r).1,
      ((serve requests).2.perform r).2) := by
  simp [serve]

theorem foldl_perform (requests : List Request) :
    requests.foldl (fun c r => (c.perform r).2) .empty = (serve requests).2 := by
  induction requests using List.reverseRecOn with
  | nil => rfl
  | append_singleton requests r ih =>
    rw [List.foldl_append, ih, serve_snoc]
    rfl

theorem asked_snoc (c : ServedQueue) (requests : List Request) (r : Request) :
    asked c (requests ++ [r]) =
      asked c requests ++ r.pushes (requests.foldl (fun c r => (c.perform r).2) c).now := by
  induction requests generalizing c with
  | nil => exact List.append_nil _
  | cons r' requests ih =>
    rw [List.cons_append, asked, asked, ih, List.append_assoc]
    rfl

/-- The pushes that requests ask for are those of their keys. -/
theorem map_key_asked (c : ServedQueue) (requests : List Request) :
    (asked c requests).map (·.key) = requests.flatMap Request.keys := by
  induction requests generalizing c with
  | nil => rfl
  | cons r requests ih =>
    rw [asked, List.map_append, ih, List.flatMap_cons]
    cases r <;> rfl

/-- Every sequence of requests is made of steps of the tasks, with its answers and pushes accounted
for. -/
theorem exists_answers_serve (requests : List Request) :
    ∃ log done, Answers (asked .empty requests) .empty (serve requests) log done := by
  induction requests using List.reverseRecOn with
  | nil => exact ⟨[], [], answers_empty⟩
  | append_singleton requests r ih =>
    obtain ⟨log, done, h⟩ := ih
    obtain ⟨rest, late, hrest, -⟩ := exists_answers_perform h.leads h.delivered r
    refine ⟨log ++ rest, done ++ late, ?_⟩
    rw [serve_snoc, asked_snoc, foldl_perform]
    refine ⟨h.leads.append hrest.leads, ?_, hrest.delivered, ?_, h.pushes.trans hrest.pushes⟩
    · rw [servedIn_append]
      exact h.handed.append hrest.handed
    · rw [pushedIn_append, h.pushed, hrest.pushed, List.map_append]

/-- The keys that were pushed or are still delayed are those that the requests name. -/
theorem Answers.perm_keys {requests : List Request} {answer : List (Nat × Delivery) × ServedQueue}
    (h : Answers (asked .empty requests) .empty answer log done) :
    (pushedIn log ++ answer.2.delayed.map (·.key)).Perm (requests.flatMap Request.keys) := by
  have hkeys := h.pushes.all.map (·.key)
  rw [List.map_append, List.map_append, map_key_asked, ← h.pushed] at hkeys
  exact hkeys

/-- Consumers are numbered by the pops that were asked for. -/
theorem started_perform (c : ServedQueue) (r : Request) :
    (c.perform r).2.started = c.started + if r.isPop then 1 else 0 := by
  have hstart : c.start.started = c.started + 1 :=
    (keepsTime_attend { c with started := c.started + 1 } c.started).started
  cases r with
  | push key => exact (keepsTime_push c key).started
  | pushAfter key millis =>
    show (c.pushAfter key millis).started = c.started
    unfold pushAfter
    split
    · exact (keepsTime_push c key).started
    · rfl
  | popWithin millis => exact (started_runUntil _ _ _ c.start).trans hstart
  | start => exact hstart
  | advance millis => exact started_runUntil _ _ _ c
  | shutDown =>
    obtain ⟨log, hlog, -⟩ := exists_runs_shutDown c
    exact hlog.time.started

/-- There are as many consumers as the requests ask for. -/
theorem started_serve (requests : List Request) :
    (serve requests).2.started = requests.countP (·.isPop) := by
  induction requests using List.reverseRecOn with
  | nil => rfl
  | append_singleton requests r ih =>
    rw [serve_snoc, started_perform, ih, List.countP_append, List.countP_singleton]

/-- At a drained queue that is shut down, every woken consumer is told of the end. -/
theorem foldl_attend_of_closed (h : c.queue.look? = some .closed) (ids : List Nat) :
    ids.foldl attend c = { c with delivered := c.delivered ++ ids.map (·, .closed) } := by
  induction ids generalizing c with
  | nil => simp
  | cons id ids ih =>
    -- The queue is empty and stays as it is.
    obtain ⟨-, hempty⟩ := look?_eq_closed_iff.1 h
    have hsame : c.queue.after .pop = c.queue := by simp [after, pop?, hempty]
    rw [List.foldl_cons, attend_of_some h, hsame]
    exact (ih (c := { c with delivered := c.delivered ++ [(id, .closed)] }) h).trans (by simp)

/-- Shutting down tells all who wait that nothing will come any more. -/
theorem shutDown_of_leads (h : Leads .start log (c.tasks [])) : c.shutDown.waiting = [] ∧
    c.shutDown.delivered = c.delivered ++ c.waiting.map (·, .closed) := by
  cases hw : c.waiting with
  | nil => simp [shutDown, notifyAll, hw]
  | cons id ids =>
    obtain ⟨hempty, -⟩ := (orderly_of_leads h).awake rfl (by simp [tasks, hw])
    have hclosed : ({ c with queue := c.queue.shutDown, waiting := [] } :
        ServedQueue).queue.look? = some .closed := look?_eq_closed_iff.2 ⟨rfl, hempty⟩
    have hall := foldl_attend_of_closed hclosed (id :: ids)
    simp only [shutDown, notifyAll, hw]
    rw [hall]
    exact ⟨rfl, rfl⟩

end ServedQueue

open ServedQueue

def QueueCall.key? : QueueCall → Option ObjectKey
  | .push key => some key
  | _ => none

theorem filterMap_key?_callsIn (log : List QueueEvent) :
    (callsIn log).filterMap QueueCall.key? = pushedIn log := by
  rw [callsIn, List.filterMap_filterMap]
  refine List.filterMap_congr fun e _ => ?_
  cases e <;> rfl

/-- A queue delivers every key that it accepted, once and in the order of acceptance, whatever is
asked of it. Whoever serves consumers from it, with pushes that come late and pops that wait, asks
nothing else of it and hands over what it delivers; the pushes that were asked for happen in the
order in which they come due, those that happened had come due and those that did not are not
overdue. -/
theorem accepted_keys_delivered_in_order :
    (∀ calls, Faithful calls) ∧
    ∀ requests, ∃ calls done, (serve requests).2.queue = follow calls ∧
      ((serve requests).1.filterMap (·.2.key?)).Perm (deliveredBy calls) ∧
      (calls.filterMap QueueCall.key? ++ (serve requests).2.delayed.map (·.key)).Perm
        (requests.flatMap Request.keys) ∧
      calls.filterMap QueueCall.key? = done.map (·.key) ∧
      (done ++ (serve requests).2.delayed).Perm (asked .empty requests) ∧
      Timely .empty (serve requests).2 done := by
  refine ⟨faithful_follow, fun requests => ?_⟩
  obtain ⟨log, done, h⟩ := exists_answers_serve requests
  obtain ⟨hqueue, hkeys⟩ := h.leads.queue steady_start
  refine ⟨callsIn log, done, hqueue, ?_, ?_, ?_, h.pushes.all, h.pushes.timely punctual_empty⟩
  · have hhanded := h.handed.filterMap (fun e : Nat × Delivery => e.2.key?)
    exact hhanded.trans (List.Perm.of_eq hkeys)
  · rw [filterMap_key?_callsIn]
    exact h.perm_keys
  · rw [filterMap_key?_callsIn]
    exact h.pushed

/-- No consumer sleeps while there is a key for it or the queue is shut down, and every key goes to
one consumer in turn: as long as consumers run one at a time, and so whatever is asked of a served
queue, where every pop starts a consumer, a pop with a limited time is served in it or leaves at its
end, and shutting down ends all waiting. -/
theorem no_consumer_sleeps_on_ready_queue :
    (∀ log s, Leads .start log s → Orderly log s) ∧
    (∀ requests, ∃ log, Leads .start log ((serve requests).2.tasks []) ∧
      (serve requests).1.Perm (servedIn log) ∧
      (pushedIn log ++ (serve requests).2.delayed.map (·.key)).Perm
        (requests.flatMap Request.keys) ∧
      (∀ p ∈ (serve requests).2.delayed, (serve requests).2.now ≤ p.due) ∧
      (serve requests).2.started = requests.countP (·.isPop) ∧
      ∀ r, ∃ rest, Leads ((serve requests).2.tasks []) rest
          (((serve requests).2.perform r).2.tasks []) ∧
        ((serve requests).2.perform r).1.Perm (servedIn rest) ∧
        r.Fulfilled (serve requests).2 ((serve requests).2.perform r) rest) ∧
    ∀ requests, ((serve requests).2.waiting ≠ [] →
        (serve requests).2.queue.order = [] ∧ (serve requests).2.queue.shuttingDown = false) ∧
      (serve requests).2.shutDown.waiting = [] ∧
      (serve requests).2.shutDown.delivered = (serve requests).2.waiting.map (·, .closed) := by
  refine ⟨fun _ _ => orderly_of_leads, fun requests => ?_, fun requests => ?_⟩
  · obtain ⟨log, done, h⟩ := exists_answers_serve requests
    have htimely := h.pushes.timely punctual_empty
    refine ⟨log, h.leads, h.handed, h.perm_keys, htimely.punctual, started_serve requests, ?_⟩
    intro r
    obtain ⟨rest, late, hrest, hfulfilled⟩ := exists_answers_perform h.leads h.delivered r
    exact ⟨rest, hrest.leads, hrest.handed, hfulfilled⟩
  · obtain ⟨log, done, h⟩ := exists_answers_serve requests
    obtain ⟨hnone, hclosed⟩ := shutDown_of_leads h.leads
    refine ⟨(orderly_of_leads h.leads).awake rfl, hnone, ?_⟩
    rw [hclosed, h.delivered, List.nil_append]

/-- Two consumers wait; a key comes, then the end. -/
theorem waiting_consumers_served_in_turn :
    ∃ log, (serve [.start, .start, .push ⟨"ns", "p"⟩, .shutDown]).1 =
        [(0, .key ⟨"ns", "p"⟩), (1, .closed)] ∧
      Orderly log ((serve [.start, .start, .push ⟨"ns", "p"⟩, .shutDown]).2.tasks []) := by
  obtain ⟨horderly, hserved, -⟩ := no_consumer_sleeps_on_ready_queue
  obtain ⟨log, hlog, -⟩ := hserved [.start, .start, .push ⟨"ns", "p"⟩, .shutDown]
  exact ⟨log, by decide +kernel, horderly log _ hlog⟩

end PodRules
