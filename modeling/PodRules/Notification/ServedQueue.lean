import PodRules.Notification.Queue
import PodRules.Time.Duration

/-!
Consumers that wait for keys of a queue, on a clock of milliseconds. A consumer that finds no key
joins the line of the waiting; a push wakes the one that waits longest, and shutting down wakes
all. A push that finds nobody waiting leaves one permit behind, which the next consumer that would
wait spends on looking once more. Every operation runs until all consumers are done or wait.
-/

namespace PodRules

inductive Delivery where
  | key (k : ObjectKey)
  | closed
  deriving DecidableEq, Repr

structure DelayedPush where
  due : Nat
  key : ObjectKey
  deriving DecidableEq, Repr

/-- A queue, its consumers and the pushes to come. Consumers are numbered in the order in which
they started. -/
structure ServedQueue where
  queue : KeyQueue
  permit : Bool
  waiting : List Nat
  delivered : List (Nat × Delivery)
  delayed : List DelayedPush
  now : Nat
  started : Nat

namespace ServedQueue

def empty : ServedQueue := ⟨.empty, false, [], [], [], 0, 0⟩

def look (c : ServedQueue) (id : Nat) : ServedQueue :=
  match c.queue.pop? with
  | some (k, queue) => { c with queue, delivered := c.delivered ++ [(id, .key k)] }
  | none =>
    if c.queue.shuttingDown then { c with delivered := c.delivered ++ [(id, .closed)] }
    else { c with waiting := c.waiting ++ [id] }

/-- A consumer that is about to wait spends the permit on a second look. -/
def attend (c : ServedQueue) (id : Nat) : ServedQueue :=
  let looked := c.look id
  if c.permit && looked.waiting.length ≠ c.waiting.length then { c with permit := false }.look id
  else looked

def notifyOne (c : ServedQueue) : ServedQueue :=
  match c.waiting with
  | [] => { c with permit := true }
  | id :: rest => { c with waiting := rest }.attend id

def notifyAll (c : ServedQueue) : ServedQueue :=
  c.waiting.foldl attend { c with waiting := [] }

def push (c : ServedQueue) (key : ObjectKey) : ServedQueue :=
  let pushed := { c with queue := c.queue.push key }
  if c.queue.accepts key then pushed.notifyOne else pushed

/-- A push after some time, which is never longer than the longest wait; without delay it happens
at once. -/
def pushAfter (c : ServedQueue) (key : ObjectKey) (millis : Nat) : ServedQueue :=
  if millis = 0 then c.push key
  else { c with delayed := c.delayed ++ [⟨c.now + min millis Duration.longestWaitMillis, key⟩] }

def shutDown (c : ServedQueue) : ServedQueue :=
  { c with queue := c.queue.shutDown }.notifyAll

def start (c : ServedQueue) : ServedQueue :=
  { c with started := c.started + 1 }.attend c.started

def nextDue? : List DelayedPush → Option (DelayedPush × List DelayedPush)
  | [] => none
  | d :: ds =>
    match nextDue? ds with
    | none => some (d, [])
    | some (e, es) => if e.due < d.due then some (e, d :: es) else some (d, ds)

/-- Lets the clock run to a time unless a condition stops it before. Each delayed push takes one
step, so the first argument is their number. -/
def runUntil (stop : ServedQueue → Bool) (limit : Nat) : Nat → ServedQueue → ServedQueue
  | 0, c => if stop c then c else { c with now := max c.now limit }
  | steps + 1, c =>
    if stop c then c
    else
      match nextDue? c.delayed with
      | none => { c with now := max c.now limit }
      | some (d, rest) =>
        if d.due ≤ limit then
          runUntil stop limit steps ({ c with delayed := rest, now := max c.now d.due }.push d.key)
        else { c with now := max c.now limit }

def advance (c : ServedQueue) (millis : Nat) : ServedQueue :=
  runUntil (fun _ => false) (c.now + millis) c.delayed.length c

def deliveryOf? (c : ServedQueue) (id : Nat) : Option Delivery := c.delivered.lookup id

/-- A consumer that waits for a limited time, behind those that wait already. Afterwards it waits
no more, whether it got something or not. -/
def popWithin (c : ServedQueue) (millis : Nat) : ServedQueue × Option Delivery :=
  let id := c.started
  let begun := c.start
  let ended :=
    runUntil (fun c => (c.deliveryOf? id).isSome) (c.now + millis) begun.delayed.length begun
  ({ ended with
      waiting := ended.waiting.filter (· ≠ id)
      delivered := ended.delivered.filter (·.1 ≠ id) },
    ended.deliveryOf? id)

def collect (c : ServedQueue) : List (Nat × Delivery) × ServedQueue :=
  (sortBy (fun a b => decide (a.1 ≤ b.1)) c.delivered, { c with delivered := [] })

end ServedQueue

end PodRules
