import PodRules.Notification.ServedQueue

namespace PodRules

/-- What is asked of a queue. A delayed push is a push at the time when it is due. -/
inductive QueueCall where
  | push (key : ObjectKey)
  | pop
  | shutDown
  deriving DecidableEq

namespace KeyQueue

def look? (q : KeyQueue) : Option Delivery :=
  match q.pop? with
  | some (k, _) => some (.key k)
  | none => if q.shuttingDown then some .closed else none

def after (q : KeyQueue) : QueueCall → KeyQueue
  | .push key => q.push key
  | .pop => (q.pop?.map (·.2)).getD q
  | .shutDown => q.shutDown

def accepted (q : KeyQueue) : QueueCall → List ObjectKey
  | .push key => if q.size < (q.push key).size then [key] else []
  | _ => []

def refused (q : KeyQueue) : QueueCall → List ObjectKey
  | .push key => if q.size < (q.push key).size then [] else [key]
  | _ => []

def delivered (q : KeyQueue) : QueueCall → List ObjectKey
  | .pop => (q.pop?.map (·.1)).toList
  | _ => []

def along (f : KeyQueue → QueueCall → List ObjectKey) : KeyQueue → List QueueCall → List ObjectKey
  | _, [] => []
  | q, c :: cs => f q c ++ along f (q.after c) cs

def follow (calls : List QueueCall) : KeyQueue := calls.foldl after empty

def acceptedBy (calls : List QueueCall) : List ObjectKey := along accepted empty calls

def refusedBy (calls : List QueueCall) : List ObjectKey := along refused empty calls

def deliveredBy (calls : List QueueCall) : List ObjectKey := along delivered empty calls

structure Faithful (calls : List QueueCall) : Prop where
  nodup : (follow calls).order.Nodup
  mem_queued : ∀ k, k ∈ (follow calls).queued ↔ k ∈ (follow calls).order
  accepted_iff : ∀ k, (follow calls).size < ((follow calls).push k).size ↔
    .shutDown ∉ calls ∧ k ∉ (follow calls).order
  in_order : deliveredBy calls ++ (follow calls).order = acceptedBy calls
  coalesced :
    (follow calls).coalesced = (refusedBy (calls.takeWhile (· ≠ .shutDown))).length
  closed_iff : (follow calls).look? = some .closed ↔
    .shutDown ∈ calls ∧ deliveredBy calls = acceptedBy calls
  /-- The news that no key will come any more stays true. -/
  final : (follow calls).look? = some .closed →
    ∀ more, (follow (calls ++ more)).look? = some .closed ∧
      deliveredBy (calls ++ more) = deliveredBy calls

/-! ## One call -/

variable {q : KeyQueue} {k : ObjectKey}

theorem look?_cons {rest : List ObjectKey} (h : q.order = k :: rest) :
    q.look? = some (.key k) := by
  simp [look?, pop?, h]

theorem look?_nil (h : q.order = []) :
    q.look? = if q.shuttingDown then some .closed else none := by
  simp [look?, pop?, h]

/-- A consumer is told of the end when the queue is shut down and drained, not before. -/
theorem look?_eq_closed_iff : q.look? = some .closed ↔ q.shuttingDown = true ∧ q.order = [] := by
  cases h : q.order with
  | nil => simp [look?_nil h]
  | cons k rest => simp [look?_cons h]

theorem look?_eq_none_iff : q.look? = none ↔ q.shuttingDown = false ∧ q.order = [] := by
  cases h : q.order with
  | nil => simp [look?_nil h]
  | cons k rest => simp [look?_cons h]

theorem order_after_pop (q : KeyQueue) : (q.after .pop).order = q.order.tail := by
  cases h : q.order with
  | nil => simp [after, pop?, h]
  | cons k rest => simp [after, pop?, h]

@[simp] theorem shuttingDown_after_pop (q : KeyQueue) :
    (q.after .pop).shuttingDown = q.shuttingDown := by
  cases h : q.order with
  | nil => simp [after, pop?, h]
  | cons k rest => simp [after, pop?, h]

theorem coalesced_after_pop (q : KeyQueue) : (q.after .pop).coalesced = q.coalesced := by
  cases h : q.order with
  | nil => simp [after, pop?, h]
  | cons k rest => simp [after, pop?, h]

@[simp] theorem shuttingDown_push (q : KeyQueue) (k : ObjectKey) :
    (q.push k).shuttingDown = q.shuttingDown := by
  unfold push
  split
  · rfl
  · split <;> rfl

/-- The line grows by an accepted key, and only by that. -/
theorem order_push (q : KeyQueue) (k : ObjectKey) :
    (q.push k).order = if q.accepts k then q.order ++ [k] else q.order := by
  cases hd : q.shuttingDown with
  | true => simp [push, accepts, hd]
  | false => cases hk : q.queued.contains k <;> simp [push, accepts, hd, hk]

theorem size_lt_push_iff : q.size < (q.push k).size ↔ q.accepts k = true := by
  rw [size, size, order_push]
  cases q.accepts k <;> simp

theorem accepted_push (q : KeyQueue) (k : ObjectKey) :
    q.accepted (.push k) = if q.accepts k then [k] else [] := by
  simp [accepted, size_lt_push_iff]

theorem refused_push (q : KeyQueue) (k : ObjectKey) :
    q.refused (.push k) = if q.accepts k then [] else [k] := by
  simp [refused, size_lt_push_iff]

/-- In a consistent queue, a key is accepted unless it waits already or the queue is shut down. -/
theorem Consistent.accepts_iff (h : q.Consistent) :
    q.accepts k = true ↔ q.shuttingDown = false ∧ k ∉ q.order := by
  have hk : q.queued.contains k = true ↔ k ∈ q.order := by
    rw [SortedSet.contains_iff, h.mem_queued]
  rw [accepts, ← hk, Bool.and_eq_true, Bool.not_eq_true', Bool.not_eq_true', Bool.not_eq_true]

/-- A key that is not accepted was counted, unless the queue was shut down before. -/
theorem coalesced_push (q : KeyQueue) (k : ObjectKey) :
    (q.push k).coalesced =
      if q.shuttingDown then q.coalesced else q.coalesced + (q.refused (.push k)).length := by
  rw [refused_push]
  cases hd : q.shuttingDown with
  | true => simp [push, hd]
  | false => cases hk : q.queued.contains k <;> simp [push, accepts, hd, hk]

theorem Consistent.after (h : q.Consistent) (c : QueueCall) : (q.after c).Consistent := by
  cases c with
  | push key => exact h.push key
  | pop =>
    cases hp : q.pop? with
    | none => simpa [KeyQueue.after, hp] using h
    | some e => simpa [KeyQueue.after, hp] using h.pop hp
  | shutDown => exact ⟨h.nodup, h.mem_queued⟩

/-- What a call delivers it takes from the front of the line, what it accepts it adds at the end. -/
theorem delivered_append_order_after (q : KeyQueue) (c : QueueCall) :
    q.delivered c ++ (q.after c).order = q.order ++ q.accepted c := by
  cases c with
  | push key =>
    rw [accepted_push]
    cases ha : q.accepts key <;> simp [delivered, after, order_push, ha]
  | pop =>
    rw [order_after_pop]
    cases h : q.order with
    | nil => simp [delivered, accepted, pop?, h]
    | cons k rest => simp [delivered, accepted, pop?, h]
  | shutDown => simp [delivered, after, accepted, shutDown]

theorem shuttingDown_after_iff (q : KeyQueue) (c : QueueCall) :
    (q.after c).shuttingDown = true ↔ q.shuttingDown = true ∨ c = .shutDown := by
  cases c with
  | push key => simp [after]
  | pop => simp
  | shutDown => simp [after, shutDown]

/-- A queue that was shut down and is empty stays so, and delivers nothing. -/
theorem after_of_closed (h : q.look? = some .closed) (c : QueueCall) :
    (q.after c).look? = some .closed ∧ q.delivered c = [] := by
  obtain ⟨hdown, hempty⟩ := look?_eq_closed_iff.1 h
  rw [look?_eq_closed_iff]
  cases c with
  | push key => simp [after, order_push, accepts, hdown, hempty, delivered]
  | pop => simp [order_after_pop, hdown, hempty, delivered, pop?]
  | shutDown => simp [after, shutDown, hempty, delivered]

/-! ## Any sequence of calls -/

theorem along_append (f : KeyQueue → QueueCall → List ObjectKey) (q : KeyQueue)
    (calls more : List QueueCall) :
    along f q (calls ++ more) = along f q calls ++ along f (calls.foldl after q) more := by
  induction calls generalizing q with
  | nil => rfl
  | cons c cs ih => simp [along, ih]

/-- A queue that started empty is consistent after every sequence of calls. -/
theorem Consistent.follow (calls : List QueueCall) : (KeyQueue.follow calls).Consistent :=
  List.foldlRecOn calls KeyQueue.after .empty fun _ h c _ => h.after c

/-- Keys leave in the order in which they were accepted: what was delivered, followed by what waits,
is what waited at first, followed by what was accepted. -/
theorem delivered_append_order (q : KeyQueue) (calls : List QueueCall) :
    along delivered q calls ++ (calls.foldl after q).order = q.order ++ along accepted q calls := by
  induction calls generalizing q with
  | nil => simp [along]
  | cons c cs ih =>
    calc along delivered q (c :: cs) ++ (cs.foldl after (q.after c)).order
        = q.delivered c ++ ((q.after c).order ++ along accepted (q.after c) cs) := by
          rw [along, List.append_assoc, ih]
      _ = q.order ++ along accepted q (c :: cs) := by
          rw [← List.append_assoc, delivered_append_order_after, List.append_assoc, along]

theorem shuttingDown_foldl_iff (q : KeyQueue) (calls : List QueueCall) :
    (calls.foldl after q).shuttingDown = true ↔ q.shuttingDown = true ∨ .shutDown ∈ calls := by
  induction calls generalizing q with
  | nil => simp
  | cons c cs ih =>
    rw [List.foldl_cons, ih, shuttingDown_after_iff, List.mem_cons, or_assoc, eq_comm (a := c)]

theorem coalesced_foldl_of_shuttingDown (h : q.shuttingDown = true) (calls : List QueueCall) :
    (calls.foldl after q).coalesced = q.coalesced := by
  induction calls generalizing q with
  | nil => rfl
  | cons c cs ih =>
    rw [List.foldl_cons, ih ((shuttingDown_after_iff q c).2 (.inl h))]
    cases c with
    | push key => simp [after, coalesced_push, h]
    | pop => exact coalesced_after_pop q
    | shutDown => rfl

/-- Every push that an open queue refused is counted; those after the shut-down are not. -/
theorem coalesced_foldl (h : q.shuttingDown = false) (calls : List QueueCall) :
    (calls.foldl after q).coalesced =
      q.coalesced + (along refused q (calls.takeWhile (· ≠ .shutDown))).length := by
  -- Pushes count up to the first call that shuts down; from there on none does.
  induction calls generalizing q with
  | nil => rfl
  | cons c cs ih =>
    cases c with
    | push key =>
      rw [List.foldl_cons, ih (by simpa [after] using h)]
      simp [along, after, coalesced_push, h, Nat.add_assoc]
    | pop =>
      rw [List.foldl_cons, ih (by simpa using h), coalesced_after_pop]
      simp [along, refused]
    | shutDown =>
      rw [List.foldl_cons, coalesced_foldl_of_shuttingDown rfl]
      simp [along, after, shutDown]

/-- Once drained, a queue that is shut down stays so, and delivers no key. -/
theorem foldl_of_closed (h : q.look? = some .closed) (calls : List QueueCall) :
    (calls.foldl after q).look? = some .closed ∧ along delivered q calls = [] := by
  induction calls generalizing q with
  | nil => exact ⟨h, rfl⟩
  | cons c cs ih =>
    obtain ⟨hnext, hnone⟩ := after_of_closed h c
    obtain ⟨hlast, hrest⟩ := ih hnext
    exact ⟨hlast, by simp [along, hnone, hrest]⟩

theorem shuttingDown_follow_iff (calls : List QueueCall) :
    (follow calls).shuttingDown = true ↔ .shutDown ∈ calls := by
  simpa [follow, empty] using shuttingDown_foldl_iff empty calls

theorem deliveredBy_append_order (calls : List QueueCall) :
    deliveredBy calls ++ (follow calls).order = acceptedBy calls :=
  delivered_append_order empty calls

/-- Whatever is asked of it, a queue delivers every key that it accepted once and in order. -/
theorem faithful_follow (calls : List QueueCall) : Faithful calls := by
  have hconsistent := Consistent.follow calls
  have horder := deliveredBy_append_order calls
  refine ⟨hconsistent.nodup, hconsistent.mem_queued, fun k => ?_, horder, ?_, ?_, ?_⟩
  · rw [size_lt_push_iff, hconsistent.accepts_iff, ← shuttingDown_follow_iff,
      Bool.not_eq_true]
  · rw [follow, coalesced_foldl rfl]
    exact Nat.zero_add _
  · rw [look?_eq_closed_iff, shuttingDown_follow_iff]
    -- All accepted keys are delivered when none waits.
    have hempty : (follow calls).order = [] ↔ deliveredBy calls = acceptedBy calls := by
      rw [← horder]
      simp
    rw [hempty]
  · intro hclosed more
    obtain ⟨hstill, hnone⟩ := foldl_of_closed hclosed more
    refine ⟨by simpa [follow] using hstill, ?_⟩
    rw [deliveredBy, along_append]
    change _ ++ along delivered (follow calls) more = _
    rw [hnone, List.append_nil, deliveredBy]

end KeyQueue

end PodRules
