import PodRules.Notification.Notifier
import PodRules.Stage.Tally
import PodRules.Store.Call

/-!
A pass as a tree of calls. A pass asks its surroundings one thing at a time (the store, the table
of pending writes, the clock, the stages) and goes on with the reply, so every interleaving with
other writers and every failure is a choice of replies. `run` follows the tree with a handler that
keeps a state.
-/

namespace PodRules

inductive Call where
  | store (call : StoreCall)
  /-- Whether a view of an object at a version may be trusted. -/
  | trust (key : ObjectKey) (version : String)
  /-- Arms the expectation of a key at a version. -/
  | arm (key : ObjectKey) (base : String)
  /-- Forgets the expectation of a key. -/
  | disarm (key : ObjectKey)
  | sleep (span : Duration)
  | stages
  /-- Runs the stages side by side and waits until all have ended. -/
  | evaluate (stages : List String) (ruleSet : RuleSet) (targets : List Pod)
  | now
  | warn (ruleSet : RuleSet) (reason note : String)
  /-- Tells the sinks which targets changed. -/
  | notify (namespaceName : String) (old new : List Detail)

namespace Call

/-- The type of the reply to a call. Stages reply in the order in which they ended. -/
abbrev Reply : Call → Type
  | .store c => c.Answer
  | .trust _ _ => Bool
  | .arm _ _ => Unit
  | .disarm _ => Unit
  | .sleep _ => Unit
  | .stages => List String
  | .evaluate _ _ _ => List Completion
  | .now => Instant
  | .warn _ _ _ => Unit
  | .notify _ _ _ => Unit

end Call

inductive Pass (α : Type) : Type where
  | done (value : α)
  | failed (failure : Failure)
  | ask (call : Call) (next : call.Reply → Pass α)

namespace Pass

variable {α β γ σ : Type}

def bind : Pass α → (α → Pass β) → Pass β
  | .done v, f => f v
  | .failed e, _ => .failed e
  | .ask c k, f => .ask c fun r => (k r).bind f

def recover : Pass α → (Failure → Pass α) → Pass α
  | .done v, _ => .done v
  | .failed e, f => f e
  | .ask c k, f => .ask c fun r => (k r).recover f

instance : Monad Pass where
  pure := .done
  bind := bind

instance : MonadExcept Failure Pass where
  throw := .failed
  tryCatch := recover

def call (c : Call) : Pass c.Reply := .ask c .done

def store (c : StoreCall) : Pass c.Answer := call (.store c)

def storeOrFail (c : StoreCall) : Pass c.Value :=
  .ask (.store c) fun
    | .ok v => .done v
    | .error e => .failed (.store e)

def run (handle : (c : Call) → σ → c.Reply × σ) : Pass α → σ → Except Failure α × σ
  | .done v, s => (.ok v, s)
  | .failed e, s => (.error e, s)
  | .ask c k, s => run handle (k (handle c s).1) (handle c s).2

def perform {m : Type → Type} [Monad m] (handle : (c : Call) → m c.Reply) :
    Pass α → m (Except Failure α)
  | .done v => pure (.ok v)
  | .failed e => pure (.error e)
  | .ask c k => handle c >>= fun r => perform handle (k r)

theorem bind_done (p : Pass α) : p.bind .done = p := by
  induction p with
  | done => rfl
  | failed => rfl
  | ask c k ih => simp [bind, ih]

theorem bind_assoc (p : Pass α) (f : α → Pass β) (g : β → Pass γ) :
    (p.bind f).bind g = p.bind fun v => (f v).bind g := by
  induction p with
  | done => rfl
  | failed => rfl
  | ask c k ih => simp [bind, ih]

instance : LawfulMonad Pass :=
  .mk' Pass (fun p => bind_done p) (fun _ _ => rfl) (fun p f g => bind_assoc p f g)

/-- Running a sequence runs its parts one after the other. -/
theorem run_bind (handle : (c : Call) → σ → c.Reply × σ) (p : Pass α) (f : α → Pass β) (s : σ) :
    (p.bind f).run handle s =
      match p.run handle s with
      | (.ok v, t) => (f v).run handle t
      | (.error e, t) => (.error e, t) := by
  induction p generalizing s with
  | done => rfl
  | failed => rfl
  | ask c k ih => simp only [bind, run, ih]

end Pass

end PodRules
