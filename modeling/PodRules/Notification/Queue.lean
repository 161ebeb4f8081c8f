import PodRules.Object.Key

namespace PodRules

/-- The waiting keys in order of arrival, the same keys as a set, and how many pushes met a key
that waited already. -/
structure KeyQueue where
  order : List ObjectKey
  queued : SortedSet ObjectKey
  shuttingDown : Bool
  coalesced : Nat
  deriving DecidableEq, Inhabited

namespace KeyQueue

def empty : KeyQueue := ⟨[], ∅, false, 0⟩

def size (q : KeyQueue) : Nat := q.order.length

def accepts (q : KeyQueue) (key : ObjectKey) : Bool := !q.shuttingDown && !q.queued.contains key

def push (q : KeyQueue) (key : ObjectKey) : KeyQueue :=
  if q.shuttingDown then q
  else if q.queued.contains key then { q with coalesced := q.coalesced + 1 }
  else { q with order := q.order ++ [key], queued := q.queued.insert key }

def pop? (q : KeyQueue) : Option (ObjectKey × KeyQueue) :=
  match q.order with
  | [] => none
  | key :: rest => some (key, { q with order := rest, queued := q.queued.erase key })

def shutDown (q : KeyQueue) : KeyQueue := { q with shuttingDown := true }

def drain (q : KeyQueue) : List ObjectKey × KeyQueue :=
  (q.order, { q with order := [], queued := ∅ })

structure Consistent (q : KeyQueue) : Prop where
  nodup : q.order.Nodup
  mem_queued : ∀ k, k ∈ q.queued ↔ k ∈ q.order

theorem Consistent.empty : Consistent .empty :=
  ⟨.nil, fun k => by simp [KeyQueue.empty, EmptyCollection.emptyCollection]⟩

theorem Consistent.push {q : KeyQueue} (h : Consistent q) (key : ObjectKey) :
    Consistent (q.push key) := by
  unfold KeyQueue.push
  split
  · exact h
  · split
    · exact ⟨h.nodup, h.mem_queued⟩
    next hk =>
      rw [SortedSet.contains_iff, h.mem_queued] at hk
      refine ⟨?_, fun k => ?_⟩
      · refine List.nodup_append.2 ⟨h.nodup, by simp, ?_⟩
        rintro a ha b hb rfl
        exact hk (by simpa using List.mem_singleton.1 hb ▸ ha)
      · simp [h.mem_queued, or_comm]

theorem Consistent.pop {q r : KeyQueue} {key : ObjectKey} (h : Consistent q)
    (hp : q.pop? = some (key, r)) : Consistent r := by
  unfold KeyQueue.pop? at hp
  split at hp
  · cases hp
  next k rest e =>
    simp only [Option.some.injEq, Prod.mk.injEq] at hp
    obtain ⟨rfl, rfl⟩ := hp
    have hn := h.nodup
    rw [e, List.nodup_cons] at hn
    refine ⟨hn.2, fun j => ?_⟩
    simp only [SortedSet.mem_erase, h.mem_queued, e, List.mem_cons]
    constructor
    · rintro ⟨rfl | hj, hne⟩
      · exact absurd rfl hne
      · exact hj
    · exact fun hj => ⟨Or.inr hj, fun e => hn.1 (e ▸ hj)⟩

end KeyQueue

end PodRules
