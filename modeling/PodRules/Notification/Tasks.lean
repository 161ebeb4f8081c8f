import PodRules.Notification.ServedQueue

namespace PodRules

inductive QueueEvent where
  | pushed (key : ObjectKey)
  | shutDown
  | served (id : Nat) (delivery : Delivery)
  | waited (id : Nat)
  | left (id : Nat)
  deriving DecidableEq

structure QueueTasks where
  queue : KeyQueue
  permit : Bool
  /-- Consumers that wait, the longest waiting first. -/
  waiting : List Nat
  /-- Consumers that were woken and have not run since. -/
  woken : List Nat
  started : Nat

namespace QueueTasks

def start : QueueTasks := ⟨.empty, false, [], [], 0⟩

def notifyOne (s : QueueTasks) : QueueTasks :=
  match s.waiting with
  | [] => { s with permit := true }
  | id :: rest => { s with waiting := rest, woken := s.woken ++ [id] }

def notifyAll (s : QueueTasks) : QueueTasks :=
  { s with waiting := [], woken := s.woken ++ s.waiting }

def shutDown (s : QueueTasks) : QueueTasks := { s with queue := s.queue.shutDown }.notifyAll

inductive Turn (id : Nat) : QueueTasks → QueueEvent → QueueTasks → Prop
  | key {s : QueueTasks} {k : ObjectKey} {rest : KeyQueue} (h : s.queue.pop? = some (k, rest)) :
      Turn id s (.served id (.key k)) { s with queue := rest }
  | closed {s : QueueTasks} (h : s.queue.pop? = none) (hd : s.queue.shuttingDown = true) :
      Turn id s (.served id .closed) s
  /-- A permit is spent in place of a wait. -/
  | again {s t : QueueTasks} {e : QueueEvent} (h : s.queue.pop? = none)
      (hd : s.queue.shuttingDown = false) (hp : s.permit = true)
      (ht : Turn id { s with permit := false } e t) : Turn id s e t
  | waits {s : QueueTasks} (h : s.queue.pop? = none) (hd : s.queue.shuttingDown = false)
      (hp : s.permit = false) : Turn id s (.waited id) { s with waiting := s.waiting ++ [id] }

inductive Step : QueueTasks → QueueEvent → QueueTasks → Prop
  | accepted {s : QueueTasks} (key : ObjectKey) (h : s.queue.accepts key = true) :
      Step s (.pushed key) { s with queue := s.queue.push key }.notifyOne
  | refused {s : QueueTasks} (key : ObjectKey) (h : s.queue.accepts key = false) :
      Step s (.pushed key) { s with queue := s.queue.push key }
  | shutDown {s : QueueTasks} : Step s .shutDown s.shutDown
  | starts {s t : QueueTasks} {e : QueueEvent} (hw : s.woken = [])
      (ht : Turn s.started { s with started := s.started + 1 } e t) : Step s e t
  | runs {s t : QueueTasks} {id : Nat} {rest : List Nat} {e : QueueEvent}
      (hw : s.woken = id :: rest) (ht : Turn id { s with woken := rest } e t) : Step s e t
  | leaves {s : QueueTasks} (id : Nat) (h : id ∈ s.waiting) :
      Step s (.left id) { s with waiting := s.waiting.filter (· ≠ id) }

inductive Leads (s : QueueTasks) : List QueueEvent → QueueTasks → Prop
  | here : Leads s [] s
  | step {log : List QueueEvent} {t u : QueueTasks} {e : QueueEvent} (h : Leads s log t)
      (hst : Step t e u) : Leads s (log ++ [e]) u

end QueueTasks

end PodRules
