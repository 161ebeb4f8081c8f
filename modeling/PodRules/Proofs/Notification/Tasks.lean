import Mathlib.Data.List.Perm.Basic
import PodRules.Notification.Tasks
import PodRules.Proofs.Notification.Queue

/-!
Consumers of a queue in any order of their steps. There are never more woken consumers than keys,
and whoever is not woken sleeps for want of a key (`Steady`), so that nobody who was woken has to
wait again. Main statement: every key goes to one consumer, the waiting ones are served in the order
in which they began to wait, and none sleeps while there is something to get (`orderly_of_leads`).
-/

namespace PodRules

def Delivery.key? : Delivery → Option ObjectKey
  | .key k => some k
  | .closed => none

namespace QueueEvent

def call? : QueueEvent → Option QueueCall
  | .pushed key => some (.push key)
  | .shutDown => some .shutDown
  | .served _ _ => some .pop
  | _ => none

def pushed? : QueueEvent → Option ObjectKey
  | .pushed key => some key
  | _ => none

def served? : QueueEvent → Option (Nat × Delivery)
  | .served id d => some (id, d)
  | _ => none

def waited? : QueueEvent → Option Nat
  | .waited id => some id
  | _ => none

def left? : QueueEvent → Option Nat
  | .left id => some id
  | _ => none

end QueueEvent

namespace QueueTasks

open KeyQueue

def callsIn (log : List QueueEvent) : List QueueCall := log.filterMap (·.call?)

def pushedIn (log : List QueueEvent) : List ObjectKey := log.filterMap (·.pushed?)

def servedIn (log : List QueueEvent) : List (Nat × Delivery) := log.filterMap (·.served?)

def idsServedIn (log : List QueueEvent) : List Nat := (servedIn log).map (·.1)

def keysServedIn (log : List QueueEvent) : List ObjectKey := (servedIn log).filterMap (·.2.key?)

def waitedIn (log : List QueueEvent) : List Nat := log.filterMap (·.waited?)

def leftIn (log : List QueueEvent) : List Nat := log.filterMap (·.left?)

structure Steady (s : QueueTasks) : Prop where
  permit : s.permit = true → s.waiting = []
  enough : s.queue.shuttingDown = false → s.woken.length ≤ s.queue.order.length
  asleep : s.waiting ≠ [] →
    s.queue.shuttingDown = false ∧ s.queue.order.length ≤ s.woken.length

/-- What holds of a queue and its consumers after all that happened. -/
structure Orderly (log : List QueueEvent) (s : QueueTasks) : Prop where
  /-- Nobody sleeps while there is something to get. -/
  awake : s.woken = [] → s.waiting ≠ [] → s.queue.order = [] ∧ s.queue.shuttingDown = false
  permit : s.permit = true → s.waiting = []
  queue : s.queue = follow (callsIn log)
  handed : keysServedIn log ++ s.queue.order = acceptedBy (callsIn log)
  /-- Every consumer is served at most once, and waits or was woken or gave up otherwise. -/
  once : (idsServedIn log ++ leftIn log ++ s.woken ++ s.waiting).Perm (List.range s.started)
  in_turn : (waitedIn log).filter (· ∉ leftIn log) =
    (idsServedIn log).filter (· ∈ waitedIn log) ++ s.woken ++ s.waiting
  /-- Whoever was woken gets something when it runs. -/
  settles : ∃ rest t, Leads s rest t ∧ t.woken = [] ∧ t.waiting = s.waiting ∧
    rest.length = s.woken.length ∧ idsServedIn rest = s.woken
  closing : s.woken = [] → ∀ rest t, Leads s.shutDown rest t → t.woken = [] →
    t.waiting = [] ∧ ∀ id ∈ s.waiting, .served id .closed ∈ rest

variable {s t u : QueueTasks} {id : Nat} {e : QueueEvent} {log rest : List QueueEvent}

/-! ## One turn -/

theorem pop?_eq_none_iff {q : KeyQueue} : q.pop? = none ↔ q.order = [] := by
  cases h : q.order <;> simp [pop?, h]

/-- A consumer gets what there is, and waits if there is nothing; the permit is spent then. -/
theorem Turn.outcome (h : Turn id s e t) :
    (∃ d, s.queue.look? = some d ∧ e = .served id d ∧
      t = { s with queue := s.queue.after .pop }) ∨
    (s.queue.look? = none ∧ e = .waited id ∧
      t = { s with permit := false, waiting := s.waiting ++ [id] }) := by
  induction h with
  | @key s k q h => exact .inl ⟨.key k, by simp [look?, h], rfl, by simp [after, h]⟩
  | @closed s h hd => exact .inl ⟨.closed, by simp [look?, h, hd], rfl, by simp [after, h]⟩
  | @again s t e h hd hp ht ih =>
    -- The second look is at the same queue.
    obtain ⟨d, hd', -, -⟩ | ⟨hnone, he, rfl⟩ := ih
    · have hnone : s.queue.look? = none := by simp [look?, h, hd]
      rw [show s.queue.look? = some d from hd'] at hnone
      cases hnone
    · exact .inr ⟨hnone, he, rfl⟩
  | @waits s h hd hp => exact .inr ⟨by simp [look?, h, hd], rfl, by simp [← hp]⟩

theorem turn_of_some {d : Delivery} (h : s.queue.look? = some d) :
    Turn id s (.served id d) { s with queue := s.queue.after .pop } := by
  cases hp : s.queue.pop? with
  | some e =>
    obtain ⟨k, rest⟩ := e
    obtain rfl : Delivery.key k = d := by simpa [look?, hp] using h
    have hturn : Turn id s (.served id (.key k)) { s with queue := rest } := .key hp
    simpa [after, hp] using hturn
  | none =>
    cases hd : s.queue.shuttingDown with
    | false => simp [look?, hp, hd] at h
    | true =>
      obtain rfl : Delivery.closed = d := by simpa [look?, hp, hd] using h
      have hturn : Turn id s (.served id .closed) s := .closed hp hd
      simpa [after, hp] using hturn

theorem turn_of_none (h : s.queue.look? = none) :
    Turn id s (.waited id) { s with permit := false, waiting := s.waiting ++ [id] } := by
  obtain ⟨hd, hempty⟩ := look?_eq_none_iff.1 h
  have hpop := pop?_eq_none_iff.2 hempty
  cases hp : s.permit with
  | true => exact .again hpop hd hp (.waits (s := { s with permit := false }) hpop hd rfl)
  | false =>
    have hturn : Turn id s (.waited id) { s with waiting := s.waiting ++ [id] } :=
      .waits hpop hd hp
    simpa [hp] using hturn

/-! ## Who is woken, and who sleeps -/

theorem steady_start : start.Steady := ⟨fun _ => rfl, fun _ => Nat.zero_le _, fun h => absurd rfl h⟩

theorem shuttingDown_of_accepts {q : KeyQueue} {k : ObjectKey} (h : q.accepts k = true) :
    q.shuttingDown = false := by
  simp only [accepts, Bool.and_eq_true, Bool.not_eq_true'] at h
  exact h.1

/-- A consumer that was woken finds something, for none was woken in vain. -/
theorem Steady.look?_isSome {ids : List Nat} (h : s.Steady) (hw : s.woken = id :: ids) :
    s.queue.look?.isSome = true := by
  cases hl : s.queue.look? with
  | some d => rfl
  | none =>
    obtain ⟨hd, hempty⟩ := look?_eq_none_iff.1 hl
    have henough := h.enough hd
    simp [hw, hempty] at henough

/-- While somebody sleeps and nobody was woken, there is nothing to get. -/
theorem Steady.look?_eq_none (h : s.Steady) (hw : s.woken = []) (hs : s.waiting ≠ []) :
    s.queue.look? = none := by
  obtain ⟨hd, hle⟩ := h.asleep hs
  rw [hw, List.length_nil, Nat.le_zero, List.length_eq_zero_iff] at hle
  exact look?_eq_none_iff.2 ⟨hd, hle⟩

/-- What a step does to a steady state: nobody who was woken waits again, and nobody is served on
arrival while others wait. -/
inductive Outcome (s : QueueTasks) : QueueEvent → QueueTasks → Prop
  | queued (key : ObjectKey) (ha : s.queue.accepts key = true) (hw : s.waiting = []) :
      Outcome s (.pushed key) { s with queue := s.queue.push key, permit := true }
  | roused (key : ObjectKey) (ha : s.queue.accepts key = true) (id : Nat) (ids : List Nat)
      (hw : s.waiting = id :: ids) : Outcome s (.pushed key) { s with
        queue := s.queue.push key, waiting := ids, woken := s.woken ++ [id] }
  | refused (key : ObjectKey) (ha : s.queue.accepts key = false) :
      Outcome s (.pushed key) { s with queue := s.queue.push key }
  | shutDown : Outcome s .shutDown s.shutDown
  | servedOnArrival (d : Delivery) (hw : s.woken = []) (hn : s.waiting = [])
      (hl : s.queue.look? = some d) : Outcome s (.served s.started d) { s with
        queue := s.queue.after .pop, started := s.started + 1 }
  | waits (hw : s.woken = []) (hl : s.queue.look? = none) : Outcome s (.waited s.started) { s with
      permit := false, waiting := s.waiting ++ [s.started], started := s.started + 1 }
  | served (d : Delivery) (id : Nat) (ids : List Nat) (hw : s.woken = id :: ids)
      (hl : s.queue.look? = some d) :
      Outcome s (.served id d) { s with queue := s.queue.after .pop, woken := ids }
  | leaves (id : Nat) (h : id ∈ s.waiting) :
      Outcome s (.left id) { s with waiting := s.waiting.filter (· ≠ id) }

/-- In a steady state a step has one of few outcomes: the permit and the sleepers never meet. -/
theorem Step.outcome (hst : Step s e t) (h : s.Steady) : Outcome s e t := by
  cases hst with
  | accepted key ha =>
    cases hw : s.waiting with
    | nil => simpa [notifyOne, hw] using Outcome.queued key ha hw
    | cons id ids => simpa [notifyOne, hw] using Outcome.roused key ha id ids hw
  | refused key ha => exact .refused key ha
  | shutDown => exact .shutDown
  | @starts t e hw ht =>
    obtain ⟨d, hl, rfl, rfl⟩ | ⟨hl, rfl, rfl⟩ := ht.outcome
    · refine .servedOnArrival d hw ?_ hl
      by_contra hne
      cases (h.look?_eq_none hw hne).symm.trans hl
    · exact .waits hw hl
  | runs hw ht =>
    obtain ⟨d, hl, rfl, rfl⟩ | ⟨hl, -, -⟩ := ht.outcome
    · exact .served d _ _ hw hl
    · have hsome := h.look?_isSome hw
      rw [show s.queue.look? = none from hl] at hsome
      cases hsome
  | leaves id hid => exact .leaves id hid

/-- Each of these outcomes is steady again. -/
theorem Outcome.steady (ho : Outcome s e t) (h : s.Steady) : t.Steady := by
  obtain ⟨hpermit, henough, hasleep⟩ := h
  cases ho with
  | queued key ha hw =>
    refine ⟨fun _ => hw, fun _ => ?_, fun hne => absurd hw hne⟩
    have hlen := henough (shuttingDown_of_accepts ha)
    simp only [order_push, ha, if_true, List.length_append]
    omega
  | roused key ha id ids hw =>
    -- One key more, and one consumer more that was woken.
    obtain ⟨hd, hle⟩ := hasleep (by simp [hw])
    have hlen := henough hd
    refine ⟨fun hp => ?_, fun _ => ?_, fun _ => ⟨by simpa using hd, ?_⟩⟩
    · rw [hpermit hp] at hw
      cases hw
    · simp only [order_push, ha, if_true, List.length_append, List.length_singleton]
      omega
    · simp only [order_push, ha, if_true, List.length_append, List.length_singleton]
      omega
  | refused key ha =>
    have horder : (s.queue.push key).order = s.queue.order := by simp [order_push, ha]
    exact ⟨hpermit, by simpa [horder] using henough, by simpa [horder] using hasleep⟩
  | shutDown =>
    refine ⟨fun _ => rfl, fun hd => ?_, fun hne => absurd rfl hne⟩
    cases hd
  | servedOnArrival d hw hn hl =>
    exact ⟨fun _ => hn, fun _ => by simp [hw], fun hne => absurd hn hne⟩
  | waits hw hl =>
    obtain ⟨hd, hempty⟩ := look?_eq_none_iff.1 hl
    refine ⟨fun hp => ?_, fun _ => by simp [hw], fun _ => ⟨hd, by simp [hempty]⟩⟩
    cases hp
  | served d id ids hw hl =>
    -- A consumer takes its key with it.
    rw [hw, List.length_cons] at henough hasleep
    refine ⟨hpermit, fun hd => ?_, fun hne => ?_⟩
    · have hlen := henough (by simpa using hd)
      simp only [order_after_pop, List.length_tail]
      omega
    · obtain ⟨hd, hle⟩ := hasleep hne
      refine ⟨by simpa using hd, ?_⟩
      simp only [order_after_pop, List.length_tail]
      omega
  | leaves id hid =>
    refine ⟨fun hp => ?_, henough, fun _ => hasleep (List.ne_nil_of_mem hid)⟩
    simp [hpermit hp]

theorem Leads.steady (h : Leads s log t) (hs : s.Steady) : t.Steady := by
  induction h with
  | here => exact hs
  | step _ hst ih => exact (hst.outcome ih).steady ih

/-! ## What the queue gives out -/

theorem callsIn_append (log rest : List QueueEvent) :
    callsIn (log ++ rest) = callsIn log ++ callsIn rest := List.filterMap_append

theorem keysServedIn_append (log rest : List QueueEvent) :
    keysServedIn (log ++ rest) = keysServedIn log ++ keysServedIn rest := by
  simp [keysServedIn, servedIn]

/-- A pop that finds something takes it out. -/
theorem delivered_pop_of_look? {q : KeyQueue} {d : Delivery} (h : q.look? = some d) :
    q.delivered .pop = d.key?.toList := by
  cases ho : q.order with
  | nil =>
    have hd : q.shuttingDown = true ∧ Delivery.closed = d := by simpa [look?_nil ho] using h
    simp [delivered, pop?, ho, ← hd.2, Delivery.key?]
  | cons k rest =>
    obtain rfl : Delivery.key k = d := by simpa [look?_cons ho] using h
    simp [delivered, pop?, ho, Delivery.key?]

theorem keysServedIn_served {q : KeyQueue} {d : Delivery} (id : Nat) (h : q.look? = some d) :
    keysServedIn [.served id d] = along delivered q [.pop] := by
  rw [along, along, List.append_nil, delivered_pop_of_look? h]
  cases d <;> rfl

/-- The queue sees the calls of a step, and gives out what the consumer gets. -/
theorem Outcome.queue (ho : Outcome s e t) :
    t.queue = (callsIn [e]).foldl after s.queue ∧
      keysServedIn [e] = along delivered s.queue (callsIn [e]) := by
  cases ho with
  | queued key ha hw => exact ⟨rfl, rfl⟩
  | roused key ha id ids hw => exact ⟨rfl, rfl⟩
  | refused key ha => exact ⟨rfl, rfl⟩
  | shutDown => exact ⟨rfl, rfl⟩
  | servedOnArrival d hw hn hl => exact ⟨rfl, keysServedIn_served s.started hl⟩
  | waits hw hl => exact ⟨rfl, rfl⟩
  | served d id ids hw hl => exact ⟨rfl, keysServedIn_served id hl⟩
  | leaves id hid => exact ⟨rfl, rfl⟩

/-- What the tasks do to the queue is what the logged calls do to it, and they are handed what those
calls deliver. -/
theorem Leads.queue (h : Leads s log t) (hs : s.Steady) :
    t.queue = (callsIn log).foldl after s.queue ∧
      keysServedIn log = along delivered s.queue (callsIn log) := by
  induction h with
  | here => exact ⟨rfl, rfl⟩
  | @step log t u e h hst ih =>
    obtain ⟨hqueue, hkeys⟩ := ih
    obtain ⟨hnext, hmore⟩ := (hst.outcome (h.steady hs)).queue
    rw [callsIn_append, keysServedIn_append, List.foldl_append, along_append, ← hqueue]
    exact ⟨hnext, congrArg₂ _ hkeys hmore⟩

/-! ## Where the consumers are -/

structure Placed (log : List QueueEvent) (s : QueueTasks) : Prop where
  once : (idsServedIn log ++ leftIn log ++ s.woken ++ s.waiting).Perm (List.range s.started)
  in_turn : (waitedIn log).filter (· ∉ leftIn log) =
    (idsServedIn log).filter (· ∈ waitedIn log) ++ s.woken ++ s.waiting

theorem idsServedIn_snoc (log : List QueueEvent) (e : QueueEvent) :
    idsServedIn (log ++ [e]) = idsServedIn log ++ (e.served?.map (·.1)).toList := by
  cases e <;> simp [idsServedIn, servedIn, QueueEvent.served?]

theorem waitedIn_snoc (log : List QueueEvent) (e : QueueEvent) :
    waitedIn (log ++ [e]) = waitedIn log ++ e.waited?.toList := by
  cases e <;> simp [waitedIn, QueueEvent.waited?]

theorem leftIn_snoc (log : List QueueEvent) (e : QueueEvent) :
    leftIn (log ++ [e]) = leftIn log ++ e.left?.toList := by
  cases e <;> simp [leftIn, QueueEvent.left?]

/-- No consumer is in two places at once. -/
theorem Placed.nodup (h : Placed log s) :
    (idsServedIn log ++ leftIn log ++ s.woken ++ s.waiting).Nodup :=
  h.once.nodup_iff.2 List.nodup_range

/-- Whoever was woken has waited before. -/
theorem Placed.mem_waitedIn (h : Placed log s) (hid : id ∈ s.woken ++ s.waiting) :
    id ∈ waitedIn log := by
  have hmem : id ∈ (waitedIn log).filter (· ∉ leftIn log) := by
    rw [h.in_turn, List.append_assoc]
    exact List.mem_append_right _ hid
  exact (List.mem_filter.1 hmem).1

/-- Nothing is known of a consumer before it starts. -/
theorem Placed.not_mem_of_started_le (h : Placed log s) (hid : s.started ≤ id) :
    id ∉ idsServedIn log ∧ id ∉ leftIn log ∧ id ∉ waitedIn log := by
  have hplace {j : Nat} (hj : j ∈ idsServedIn log ++ leftIn log ++ s.woken ++ s.waiting) :
      j < s.started := List.mem_range.1 (h.once.mem_iff.1 hj)
  have hserved : ∀ j ∈ idsServedIn log, j < s.started := fun j hj => hplace (by simp [hj])
  have hleft : ∀ j ∈ leftIn log, j < s.started := fun j hj => hplace (by simp [hj])
  refine ⟨fun hm => ?_, fun hm => ?_, fun hm => ?_⟩
  · exact absurd (hserved id hm) (by omega)
  · exact absurd (hleft id hm) (by omega)
  · by_cases hl : id ∈ leftIn log
    · exact absurd (hleft id hl) (by omega)
    · -- Whoever waited and did not give up was served, was woken or waits.
      have hmem : id ∈ (waitedIn log).filter (· ∉ leftIn log) :=
        List.mem_filter.2 ⟨hm, by simpa using hl⟩
      rw [h.in_turn] at hmem
      have hlt : id < s.started := by
        refine hplace ?_
        simp only [List.mem_append, List.mem_filter] at hmem ⊢
        tauto
      omega

theorem placed_start : Placed [] start := ⟨by simp [idsServedIn, servedIn, leftIn, start], rfl⟩

/-- Two states with the same consumers on their way, after events that moved no other. -/
theorem Placed.of_rest (h : Placed log s) (hs : e.served? = none) (hw : e.waited? = none)
    (hl : e.left? = none) (hrest : t.woken ++ t.waiting = s.woken ++ s.waiting)
    (hstarted : t.started = s.started) : Placed (log ++ [e]) t := by
  obtain ⟨honce, hturn⟩ := h
  rw [List.append_assoc, ← hrest, ← List.append_assoc] at honce hturn
  constructor
  · simpa [idsServedIn_snoc, leftIn_snoc, hs, hl, hstarted] using honce
  · simpa [idsServedIn_snoc, waitedIn_snoc, leftIn_snoc, hs, hw, hl] using hturn

/-- A step moves a consumer from one place to another, and keeps the order among those that wait. -/
theorem Outcome.placed (ho : Outcome s e t) (h : Placed log s) : Placed (log ++ [e]) t := by
  have hcount (x : Nat) := h.once.count_eq x
  simp only [List.count_append] at hcount
  cases ho with
  | queued key ha hw => exact h.of_rest rfl rfl rfl rfl rfl
  | roused key ha id ids hw => exact h.of_rest rfl rfl rfl (by simp [hw]) rfl
  | refused key ha => exact h.of_rest rfl rfl rfl rfl rfl
  | shutDown =>
    exact h.of_rest rfl rfl rfl (by simp [QueueTasks.shutDown, QueueTasks.notifyAll]) rfl
  | servedOnArrival d hw hn hl =>
    -- The new consumer has never waited.
    obtain ⟨-, -, hnew⟩ := h.not_mem_of_started_le (Nat.le_refl s.started)
    constructor <;>
      simp only [idsServedIn_snoc, waitedIn_snoc, leftIn_snoc, QueueEvent.served?,
        QueueEvent.waited?, QueueEvent.left?, Option.map_some, Option.toList_some,
        Option.toList_none, List.append_nil]
    · refine List.perm_iff_count.2 fun x => ?_
      have hx := hcount x
      simp only [List.range_succ, List.count_append]
      omega
    · rw [h.in_turn, List.filter_append]
      simp [hnew]
  | waits hw hl =>
    obtain ⟨hserved, hnotleft, -⟩ := h.not_mem_of_started_le (Nat.le_refl s.started)
    constructor <;>
      simp only [idsServedIn_snoc, waitedIn_snoc, leftIn_snoc, QueueEvent.served?,
        QueueEvent.waited?, QueueEvent.left?, Option.map_none, Option.toList_some,
        Option.toList_none, List.append_nil]
    · refine List.perm_iff_count.2 fun x => ?_
      have hx := hcount x
      simp only [List.range_succ, List.count_append]
      omega
    · -- The new consumer stands behind all others.
      have hsame : (idsServedIn log).filter (· ∈ waitedIn log ++ [s.started]) =
          (idsServedIn log).filter (· ∈ waitedIn log) := by
        refine List.filter_congr fun j hj => ?_
        have hne : j ≠ s.started := fun he => hserved (he ▸ hj)
        simp [hne]
      rw [List.filter_append, h.in_turn, hsame]
      simp [hnotleft]
  | served d id ids hw hl =>
    have hmem : id ∈ waitedIn log := h.mem_waitedIn (by simp [hw])
    constructor <;>
      simp only [idsServedIn_snoc, waitedIn_snoc, leftIn_snoc, QueueEvent.served?,
        QueueEvent.waited?, QueueEvent.left?, Option.map_some, Option.toList_some,
        Option.toList_none, List.append_nil]
    · refine List.perm_iff_count.2 fun x => ?_
      have hx := hcount x
      simp only [hw, List.count_append, List.count_cons, List.count_nil] at hx ⊢
      omega
    · rw [h.in_turn, List.filter_append, hw]
      simp [hmem]
  | leaves id hid =>
    -- It stands in no other place, and once among those that wait.
    obtain ⟨-, hnodup, hapart⟩ := List.nodup_append.1 h.nodup
    have hne : ∀ j ∈ idsServedIn log ++ leftIn log ++ s.woken, j ≠ id := fun j hj =>
      hapart j hj id hid
    have hperm : s.waiting.Perm (id :: s.waiting.filter (· ≠ id)) := by
      have hfilter : s.waiting.filter (· ≠ id) = s.waiting.erase id := by
        rw [hnodup.erase_eq_filter]
        exact List.filter_congr fun j _ => Bool.eq_iff_iff.2 (by simp)
      rw [hfilter]
      exact List.perm_cons_erase hid
    constructor <;>
      simp only [idsServedIn_snoc, waitedIn_snoc, leftIn_snoc, QueueEvent.served?,
        QueueEvent.waited?, QueueEvent.left?, Option.map_none, Option.toList_some,
        Option.toList_none, List.append_nil]
    · refine List.perm_iff_count.2 fun x => ?_
      have hx := hcount x
      have hwaiting := hperm.count_eq x
      simp only [List.count_append, List.count_cons, List.count_nil] at hwaiting ⊢
      omega
    · have hdrop := congrArg (List.filter (· ≠ id)) h.in_turn
      have hserved : ((idsServedIn log).filter (· ∈ waitedIn log)).filter (· ≠ id) =
          (idsServedIn log).filter (· ∈ waitedIn log) :=
        List.filter_eq_self.2 fun j hj => by
          simpa using hne j (by simp [(List.mem_filter.1 hj).1])
      have hwoken : s.woken.filter (· ≠ id) = s.woken :=
        List.filter_eq_self.2 fun j hj => by simpa using hne j (by simp [hj])
      rw [List.filter_append, List.filter_append, hserved, hwoken] at hdrop
      rw [← hdrop, List.filter_filter]
      refine List.filter_congr fun j _ => ?_
      simp [and_comm]

/-- Every consumer of a run from the start is in one place, and those that waited are served in
turn. -/
theorem Leads.placed (h : Leads start log s) : Placed log s := by
  induction h with
  | here => exact placed_start
  | step h hst ih => exact (hst.outcome (h.steady steady_start)).placed ih

/-! ## Until all is quiet -/

theorem Leads.cons (hst : Step s e t) (h : Leads t log u) : Leads s (e :: log) u := by
  induction h with
  | here => exact .step .here hst
  | step _ hnext ih => exact .step ih hnext

theorem Leads.append (h : Leads s log t) (hrest : Leads t rest u) : Leads s (log ++ rest) u := by
  induction hrest with
  | here => simpa using h
  | step _ hst ih => rw [← List.append_assoc]; exact .step ih hst

/-- The woken consumers run one after the other, and each of them gets something. -/
theorem Steady.settles (h : s.Steady) : ∃ rest t, Leads s rest t ∧ t.woken = [] ∧
    t.waiting = s.waiting ∧ rest.length = s.woken.length ∧ idsServedIn rest = s.woken := by
  generalize hw : s.woken = ids
  induction ids generalizing s with
  | nil => exact ⟨[], s, .here, hw, rfl, rfl, rfl⟩
  | cons id ids ih =>
    obtain ⟨d, hl⟩ := Option.isSome_iff_exists.1 (h.look?_isSome hw)
    have hst : Step s (.served id d) { s with queue := s.queue.after .pop, woken := ids } :=
      .runs hw (turn_of_some hl)
    obtain ⟨rest, t, ht, hquiet, hwaiting, hlen, hids⟩ := ih ((hst.outcome h).steady h) rfl
    exact ⟨.served id d :: rest, t, ht.cons hst, hquiet, hwaiting, by simpa using hlen,
      by simpa [idsServedIn, servedIn, QueueEvent.served?] using hids⟩

/-- Once nothing comes any more, nobody waits and everybody who was woken gets that news. -/
theorem Leads.of_closed (h : Leads s log t) (hs : s.Steady) (hl : s.queue.look? = some .closed)
    (hw : s.waiting = []) : t.queue.look? = some .closed ∧ t.waiting = [] ∧
      ∀ id ∈ s.woken, id ∈ t.woken ∨ .served id .closed ∈ log := by
  induction h with
  | here => exact ⟨hl, hw, fun id hid => .inl hid⟩
  | @step log t u e h hst ih =>
    obtain ⟨hlook, hnone, hwoken⟩ := ih
    have hnext : u.queue.look? = some .closed := by
      rw [(hst.outcome (h.steady hs)).queue.1]
      exact (foldl_of_closed hlook _).1
    have hlater : ∀ id ∈ s.woken, id ∈ t.woken ∨ .served id .closed ∈ log ++ [e] :=
      fun id hid => (hwoken id hid).imp_right (List.mem_append_left _)
    cases hst.outcome (h.steady hs) with
    | queued key ha hw => exact ⟨hnext, hnone, hlater⟩
    | roused key ha id ids hw => exact absurd (hnone.symm.trans hw) (by simp)
    | refused key ha => exact ⟨hnext, hnone, hlater⟩
    | shutDown =>
      exact ⟨hnext, rfl, fun id hid => (hlater id hid).imp_left (List.mem_append_left _)⟩
    | servedOnArrival d hw hn hl => exact ⟨hnext, hnone, hlater⟩
    | waits hw hl => exact absurd (hl.symm.trans hlook) (by simp)
    | served d id ids hw hl =>
      obtain rfl : d = .closed := Option.some.inj (hl.symm.trans hlook)
      refine ⟨hnext, hnone, fun j hj => ?_⟩
      rcases hlater j hj with hj | hj
      · rw [hw] at hj
        rcases List.mem_cons.1 hj with rfl | hj
        · exact .inr (by simp)
        · exact .inl hj
      · exact .inr hj
    | leaves id hid => exact absurd (hnone ▸ hid) (by simp)

/-- Shutting down ends the waiting of all. -/
theorem Steady.closing (h : s.Steady) (hw : s.woken = []) (ht : Leads s.shutDown rest t)
    (hquiet : t.woken = []) : t.waiting = [] ∧ ∀ id ∈ s.waiting, .served id .closed ∈ rest := by
  have hsteady : s.shutDown.Steady := (Outcome.shutDown (s := s)).steady h
  have hdown : t.queue.shuttingDown = true := by
    rw [(ht.queue hsteady).1]
    exact (shuttingDown_foldl_iff _ _).2 (.inl rfl)
  refine ⟨?_, fun id hid => ?_⟩
  · by_contra hne
    cases hdown.symm.trans ((ht.steady hsteady).asleep hne).1
  · -- Somebody waited, so no key was left.
    obtain ⟨-, hempty⟩ := look?_eq_none_iff.1 (h.look?_eq_none hw (List.ne_nil_of_mem hid))
    have hclosed : s.shutDown.queue.look? = some .closed := look?_eq_closed_iff.2 ⟨rfl, hempty⟩
    obtain ⟨-, -, hserved⟩ := ht.of_closed hsteady hclosed rfl
    have hwoken : id ∈ s.shutDown.woken := List.mem_append_right _ hid
    exact (hserved id hwoken).resolve_left (by simp [hquiet])

/-- Whatever happens, nobody sleeps while there is something to get, and everybody is served in
turn. -/
theorem orderly_of_leads (h : Leads start log s) : Orderly log s := by
  have hsteady := h.steady steady_start
  have hplaced := h.placed
  obtain ⟨hqueue, hkeys⟩ := h.queue steady_start
  refine ⟨fun hw hne => ?_, hsteady.permit, hqueue, ?_, hplaced.once, hplaced.in_turn,
    hsteady.settles, fun hw rest t => hsteady.closing hw⟩
  · exact (look?_eq_none_iff.1 (hsteady.look?_eq_none hw hne)).symm
  · rw [hkeys, hqueue]
    exact deliveredBy_append_order (callsIn log)

end QueueTasks

end PodRules
