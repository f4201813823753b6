import LaneOrder.Error

/-!
This module contains the table of locks of a board. A lock belongs to one holder at a time; those who wait
for it stand in a queue. When it is released it belongs to the first of the queue from that moment on.

Before a lock is asked for it is looked up in the table, which makes an entry for it if there is none. There
is room for one at a time inside of the table; whoever has found an entry refers to it from then on, and asks
for the lock outside. At the end of a transaction the table is pruned: entries that nobody refers to are
dropped. This needs the table too, and is skipped if somebody is inside.
-/

namespace LaneOrder

abbrev Holder := Nat

inductive LockKey where
  | seed (workspace : WorkspaceId) (lane : Lane)
  | row (id : TaskId)
deriving DecidableEq

namespace LockKey

def text : LockKey → String
  | seed workspace lane => "seed of " ++ laneScope workspace lane
  | row id => "task " ++ toString id

instance : ToString LockKey := ⟨text⟩

end LockKey

structure LockEntry where
  key : LockKey
  owner : Option Holder
  queue : List Holder
deriving DecidableEq

namespace LockEntry

def handOver (e : LockEntry) : LockEntry :=
  { e with owner := e.queue.head?, queue := e.queue.tail }

def enqueue (e : LockEntry) (holder : Holder) : LockEntry :=
  if holder ∈ e.queue then e else { e with queue := e.queue ++ [holder] }

def leave (e : LockEntry) (holder : Holder) : LockEntry :=
  { e with queue := e.queue.filter (· ≠ holder) }

def release (e : LockEntry) (holder : Holder) : LockEntry :=
  let e := e.leave holder
  if e.owner = some holder then e.handOver else e

end LockEntry

structure LockTable where
  entries : List LockEntry := []
  /-- Who is inside of the table. -/
  visitor : Option Holder := none
  /-- Who has looked up what lock, and has yet to ask for it. -/
  requests : List (Holder × LockKey) := []
deriving DecidableEq

namespace LockTable

def lookup? (t : LockTable) (key : LockKey) : Option LockEntry :=
  t.entries.find? (·.key = key)

def owner? (t : LockTable) (key : LockKey) : Option Holder :=
  (t.lookup? key).bind (·.owner)

def owns (t : LockTable) (holder : Holder) (key : LockKey) : Bool :=
  t.owner? key = some holder

/-- Whoever has looked up a lock, waits for it or owns it need not look it up. -/
def knows (t : LockTable) (holder : Holder) (key : LockKey) : Bool :=
  (holder, key) ∈ t.requests || (t.lookup? key).any fun e => e.owner = some holder || holder ∈ e.queue

/-- Nobody else is inside. -/
def isFree (t : LockTable) (holder : Holder) : Bool :=
  t.visitor.all (· = holder)

def modify (t : LockTable) (key : LockKey) (f : LockEntry → LockEntry) : LockTable :=
  { t with entries := t.entries.map fun e => if e.key = key then f e else e }

def enter (t : LockTable) (holder : Holder) : LockTable :=
  { t with visitor := t.visitor.or (some holder) }

def withEntry (t : LockTable) (key : LockKey) : LockTable :=
  { t with entries := if (t.lookup? key).isSome then t.entries else t.entries ++ [⟨key, none, []⟩] }

/-- Leave the table, with the entry of the lock that was looked for, if any. -/
def lookUp (t : LockTable) (holder : Holder) (key? : Option LockKey) : LockTable :=
  if t.visitor = some holder then
    match key? with
    | none => { t with visitor := none }
    | some key => { t.withEntry key with visitor := none, requests := (holder, key) :: t.requests }
  else t

/-- A holder has asked for what it has looked up, or it never will. -/
def asked (t : LockTable) (holder : Holder) : LockTable :=
  { t with visitor := t.visitor.filter (· ≠ holder), requests := t.requests.filter (·.1 ≠ holder) }

def tryAcquire (t : LockTable) (holder : Holder) (key : LockKey) : Bool × LockTable :=
  match t.lookup? key with
  | none => (true, { t with entries := t.entries ++ [⟨key, some holder, []⟩] })
  | some e => match e.owner with
    | none => (true, t.modify key fun e => { e with owner := some holder })
    | some owner => (owner = holder, t)

def acquire (t : LockTable) (holder : Holder) (key : LockKey) : Bool × LockTable :=
  match t.tryAcquire holder key with
  | (true, t) => (true, t)
  | (false, t) => (false, t.modify key (·.enqueue holder))

def leave (t : LockTable) (holder : Holder) (key : LockKey) : LockTable :=
  t.modify key (·.leave holder)

def giveBack (t : LockTable) (holder : Holder) : LockTable :=
  { t.asked holder with entries := t.entries.map (·.release holder) }

/-- How many refer to an entry: the table, its owner, those who wait, and those who are about to ask. -/
def references (t : LockTable) (e : LockEntry) : Nat :=
  1 + e.owner.toList.length + e.queue.length + t.requests.countP (·.2 = e.key)

/-- Drop the entries that only the table refers to. If the table is not free this is left to the next one who
does it. -/
def prune (t : LockTable) : LockTable :=
  if t.visitor.isSome then t else { t with entries := t.entries.filter (1 < t.references ·) }

/-- Give up all that a holder has and waits for. A transaction that is closed with it prunes the table. -/
def releaseAll (t : LockTable) (holder : Holder) (closing : Bool) : LockTable :=
  if closing then (t.giveBack holder).prune else t.giveBack holder

end LockTable

end LaneOrder
