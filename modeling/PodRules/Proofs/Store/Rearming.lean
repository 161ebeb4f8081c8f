import PodRules.Proofs.Store.History

/-!
Keys that are armed again while they are pending. A table has one entry for a key, so an arming
takes the place of the one before it, whichever version is the newer one. What counts since a write
is the last arming of its key, as long as nobody clears the key or shows a newer view
(`trust_follow`). Main statement: of a write that is pending, all views that it has overtaken are
refused exactly if the last arming of its key is at no older version
(`pending_write_unmasked_iff`).
-/

namespace PodRules

def TimedCall.base? (key : ObjectKey) (c : TimedCall) : Option String :=
  match c.call with
  | .arm k base => if k = key then some base else none
  | _ => none

def lastBase? (key : ObjectKey) (calls : List TimedCall) : Option String :=
  (calls.filterMap (·.base? key)).getLast?

/-- Calls that neither clear a key nor show a view of it that is newer than a version. -/
structure Unobserved (key : ObjectKey) (base : String) (calls : List TimedCall) : Prop where
  kept : ∀ c ∈ calls, c.call ≠ .disarm key
  unseen : ∀ c ∈ calls, ∀ version, c.call = .trust key version → isNewer base version = false

/-- The calls since a write from a version of a target, or since it was armed, when the write still
counts: neither its time is over, nor was its key cleared or a newer view shown. -/
structure StillPending (ttl : Duration) (key : ObjectKey) (base : String) (start now : Nat)
    (since : List TimedCall) : Prop extends Unobserved key base since where
  began : start ≤ now
  clock : ∀ c ∈ since, start ≤ c.now ∧ c.now ≤ now
  unexpired : now - start < ttl.nanos

section

variable {t : Expectations} {key : ObjectKey} {base version : String} {now : Nat}
  {c : TimedCall} {calls : List TimedCall}

theorem TimedCall.base?_eq_none (h : c.key ≠ key) : c.base? key = none := by
  obtain ⟨clock, call⟩ := c
  cases call with
  | arm k b => exact if_neg h
  | trust | disarm => rfl

/-- The last base that was armed is of the later calls, if they arm any. -/
theorem lastBase?_append (key : ObjectKey) (calls rest : List TimedCall) :
    lastBase? key (calls ++ rest) = (lastBase? key rest).or (lastBase? key calls) := by
  rw [lastBase?, List.filterMap_append, List.getLast?_append]
  rfl

namespace Expectations

/-- A view that is not newer than one that is refused is refused as well. -/
theorem refused_of_not_newer (h : (t.trust now key base).1 = false)
    (hv : isNewer base version = false) : (t.trust now key version).1 = false := by
  obtain ⟨p, hp, hold⟩ := (trust_eq_false_iff t now key base).1 h
  exact (trust_eq_false_iff t now key version).2 ⟨p, hp, isNewer_eq_false_trans hold hv⟩

theorem blocking_of_later {p : Pending} {later : Nat} (h : now ≤ later)
    (hp : t.blocking later key = some p) : t.blocking now key = some p := by
  obtain ⟨hget, hkept⟩ := Option.filter_eq_some_iff.1 hp
  have hnot : hasExpired t.ttl now p = false := by
    by_contra hexpired
    have hlate : hasExpired t.ttl later p = true := hasExpired_mono h (by simpa using hexpired)
    simp [hlate] at hkept
  exact Option.filter_eq_some_iff.2 ⟨hget, by simp [hnot]⟩

/-- A view that is shown, and is not newer, leaves the answer as it was. -/
theorem trust_after_trust (t : Expectations) {clock : Nat} (hnow : clock ≤ now)
    (hv : isNewer base version = false) :
    ((t.trust clock key version).2.trust now key base).1 = (t.trust now key base).1 := by
  rw [trust_fst_eq_blocking, trust_fst_eq_blocking, blocking_trust]
  cases hanswer : (t.trust clock key version).1 with
  | false => simp
  | true =>
    rw [if_pos ⟨rfl, rfl⟩]
    cases hp : t.blocking now key with
    | none => rfl
    | some p =>
      -- What still blocks has blocked the view that was trusted, which has overtaken it.
      have hthen : t.blocking clock key = some p := blocking_of_later hnow hp
      have hnewer : isNewer p.base version = true := by
        rw [trust_fst_eq_blocking, hthen] at hanswer
        exact hanswer
      have hold : isNewer p.base base = true := by
        by_contra hne
        have hnot := isNewer_eq_false_trans (Bool.eq_false_iff.2 hne) hv
        rw [hnewer] at hnot
        cases hnot
      exact hold.symm

/-- An arming decides on the view that a write started from, and other calls leave the answer as it
was. -/
theorem trust_apply (t : Expectations) (hnow : c.now ≤ now) (hlate : now - c.now < t.ttl.nanos)
    (hkept : c.call ≠ .disarm key)
    (hunseen : ∀ version, c.call = .trust key version → isNewer base version = false) :
    ((c.apply t).2.trust now key base).1 =
      ((c.base? key).map fun b => isNewer b base).getD (t.trust now key base).1 := by
  by_cases hk : c.key = key
  · obtain ⟨clock, call⟩ := c
    cases call with
    | trust k v =>
      obtain rfl : k = key := hk
      exact trust_after_trust t hnow (hunseen v rfl)
    | arm k b =>
      obtain rfl : k = key := hk
      have hblocks : hasExpired t.ttl now ⟨b, clock⟩ = false :=
        decide_eq_false (Nat.not_le.2 hlate)
      have hbase : TimedCall.base? k ⟨clock, .arm k b⟩ = some b := if_pos rfl
      rw [trust_fst_eq_blocking, hbase]
      show ((t.arm clock k b).blocking now k).all _ = _
      rw [blocking_arm t k k b hnow, if_pos rfl]
      simp [Option.filter, hblocks]
    | disarm k => exact absurd (congrArg TableCall.disarm hk) hkept
  · rw [trust_fst_eq_blocking, trust_fst_eq_blocking, blocking_apply t c key hnow,
      if_neg fun h => hk h.1, TimedCall.base?_eq_none hk]
    rfl

/-- Since a write only the last arming of its key counts, as long as the key is not cleared and no
newer view is shown. -/
theorem trust_follow (t : Expectations) (h : Unobserved key base calls)
    (hclock : ∀ c ∈ calls, c.now ≤ now ∧ now - c.now < t.ttl.nanos) :
    ((t.follow calls).trust now key base).1 =
      ((lastBase? key calls).map fun b => isNewer b base).getD (t.trust now key base).1 := by
  -- On the calls from their end, with the moment of the question fixed.
  induction calls using List.reverseRecOn with
  | nil => rfl
  | append_singleton calls c ih =>
    have hcalls : Unobserved key base calls :=
      ⟨fun d hd => h.kept d (List.mem_append_left _ hd),
        fun d hd => h.unseen d (List.mem_append_left _ hd)⟩
    have hbefore := ih hcalls fun d hd => hclock d (List.mem_append_left _ hd)
    have hc : c ∈ calls ++ [c] := by simp
    obtain ⟨hnow, hlate⟩ := hclock c hc
    rw [← ttl_follow t calls] at hlate
    rw [follow_append]
    calc ((c.apply (t.follow calls)).2.trust now key base).1
        = ((c.base? key).map fun b => isNewer b base).getD
            ((t.follow calls).trust now key base).1 :=
          trust_apply (t.follow calls) hnow hlate (h.kept c hc) (h.unseen c hc)
      _ = ((lastBase? key (calls ++ [c])).map fun b => isNewer b base).getD
            (t.trust now key base).1 := by
          rw [hbefore, lastBase?_append]
          cases hb : c.base? key with
          | none => simp [lastBase?, hb]
          | some b => simp [lastBase?, hb]

end Expectations

namespace StillPending

variable {ttl : Duration} {start : Nat}

theorem lately (h : StillPending ttl key base start now calls) :
    ∀ c ∈ calls, c.now ≤ now ∧ now - c.now < ttl.nanos := by
  intro c hc
  obtain ⟨hfirst, hlast⟩ := h.clock c hc
  have hlate := h.unexpired
  exact ⟨hlast, by omega⟩

/-- The call that arms an entry may be counted among the calls since. -/
theorem cons_arm (h : StillPending ttl key base start now calls) :
    StillPending ttl key base start now (⟨start, .arm key base⟩ :: calls) where
  kept := List.forall_mem_cons.2 ⟨by rintro ⟨⟩, h.kept⟩
  unseen := List.forall_mem_cons.2 ⟨by rintro version ⟨⟩, h.unseen⟩
  began := h.began
  clock := List.forall_mem_cons.2 ⟨⟨Nat.le_refl start, h.began⟩, h.clock⟩
  unexpired := h.unexpired

end StillPending

/-- A write that is pending makes all views refused that have not overtaken it, whatever was armed
under its key since, exactly if the last of these armings is at no older version. -/
theorem pending_write_unmasked_iff (t : Expectations) {key : ObjectKey} {base : String}
    {armedAt now m : Nat} {since : List TimedCall} (hbase : Decimal.word? base = some m)
    (hnumeric : ∀ b ∈ lastBase? key since, ∃ n, Decimal.word? b = some n)
    (h : StillPending t.ttl key base armedAt now since) :
    ∃ last n, lastBase? key (⟨armedAt, .arm key base⟩ :: since) = some last ∧
      Decimal.word? last = some n ∧
      ((∀ version o, Decimal.word? version = some o → o ≤ m →
        ((t.follow (⟨armedAt, .arm key base⟩ :: since)).trust now key version).1 = false) ↔
        m ≤ n) := by
  have hlast : lastBase? key (⟨armedAt, .arm key base⟩ :: since) =
      some ((lastBase? key since).getD base) := by
    rw [← List.singleton_append, lastBase?_append]
    cases lastBase? key since <;> simp [lastBase?, TimedCall.base?]
  obtain ⟨n, hn⟩ : ∃ n, Decimal.word? ((lastBase? key since).getD base) = some n := by
    cases hsince : lastBase? key since with
    | none => exact ⟨m, hbase⟩
    | some b => exact hnumeric b hsince
  refine ⟨_, n, hlast, hn, ?_⟩
  -- The view at the version of the write itself is the last to be trusted.
  have hself := Expectations.trust_follow t h.cons_arm.toUnobserved h.cons_arm.lately
  rw [hlast] at hself
  have hle : isNewer ((lastBase? key since).getD base) base = false ↔ m ≤ n := by
    rw [isNewer_eq_false_iff_le hn, hbase]
    simp
  constructor
  · intro hall
    exact hle.1 (hself.symm.trans (hall base m hbase (Nat.le_refl m)))
  · intro hmn version o ho hom
    exact Expectations.refused_of_not_newer (hself.trans (hle.2 hmn))
      ((isNewer_eq_false_iff_le hbase).2 ⟨o, ho, hom⟩)

end

namespace Rearming

def pod : ObjectKey := ⟨"ns", "p"⟩

def inOrder : List TimedCall := [⟨3, .trust pod "8"⟩, ⟨4, .arm pod "9"⟩, ⟨5, .trust pod "7"⟩]

def late : List TimedCall := [⟨3, .trust pod "8"⟩, ⟨4, .arm ⟨"ns", "q"⟩ "2"⟩, ⟨5, .arm pod "7"⟩]

theorem stillPending_inOrder : StillPending ⟨10⟩ pod "8" 2 6 inOrder := by
  refine ⟨⟨by decide, fun c hc version hcall => ?_⟩, by decide, by decide, by decide⟩
  simp only [inOrder, List.mem_cons, List.not_mem_nil, or_false] at hc
  obtain rfl | rfl | rfl := hc <;> cases hcall
  · decide
  · decide

theorem stillPending_late : StillPending ⟨10⟩ pod "8" 2 6 late := by
  refine ⟨⟨by decide, fun c hc version hcall => ?_⟩, by decide, by decide, by decide⟩
  simp only [late, List.mem_cons, List.not_mem_nil, or_false] at hc
  obtain rfl | rfl | rfl := hc <;> cases hcall
  decide

end Rearming

open Rearming in
/-- An arming at a newer version keeps the earlier write pending, and one at an older version lets
a view from before it through. -/
theorem late_arming_unmasks_views :
    (∀ version o, Decimal.word? version = some o → o ≤ 8 →
        (((Expectations.fresh ⟨10⟩).follow (⟨2, .arm pod "8"⟩ :: inOrder)).trust 6 pod version).1 =
          false) ∧
      ¬ ∀ version o, Decimal.word? version = some o → o ≤ 8 →
        (((Expectations.fresh ⟨10⟩).follow (⟨2, .arm pod "8"⟩ :: late)).trust 6 pod version).1 =
          false := by
  have hbase : Decimal.word? "8" = some 8 := by decide
  constructor
  · obtain ⟨last, n, hlast, hn, hiff⟩ := pending_write_unmasked_iff (.fresh ⟨10⟩) hbase
      (by rintro b ⟨⟩; exact ⟨9, by decide⟩) stillPending_inOrder
    obtain rfl : "9" = last := Option.some.inj hlast
    obtain rfl : 9 = n := Option.some.inj hn
    exact hiff.2 (by decide)
  · obtain ⟨last, n, hlast, hn, hiff⟩ := pending_write_unmasked_iff (.fresh ⟨10⟩) hbase
      (by rintro b ⟨⟩; exact ⟨7, by decide⟩) stillPending_late
    obtain rfl : "7" = last := Option.some.inj hlast
    obtain rfl : 7 = n := Option.some.inj hn
    rw [hiff]
    decide

open Rearming in
/-- Of two writes that are both pending the newer one is forgotten when the older one is armed
last. -/
theorem older_arming_masks_newer_write :
    ((((Expectations.fresh ⟨10⟩).arm 2 pod "6").arm 3 pod "5").trust 4 pod "6").1 = true := by
  decide

end PodRules
