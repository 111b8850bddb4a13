import ComputeShader.Error

/-! # Detecting races

A log per element of who touched it and how. Two invocations race on an element when they store
different patterns to it, when one changes it from its pattern before the first access and the other
reads it without having stored to it first, or when one uses atomics on it and the other plain loads
or stores.
-/

namespace ComputeShader

/-- A resource that invocations share. -/
inductive Resource where
  | buffer (binding : Binding)
  | image (binding : Binding)
  deriving DecidableEq, Repr, Inhabited

def Resource.text : Resource → String
  | buffer binding => "buffer binding " ++ toString binding
  | image binding => "image binding " ++ toString binding

/-- One access to an element. -/
inductive Touch where
  | read
  | write (bits : List UInt32)
  | atomic
  deriving DecidableEq, Repr

/-- A race on an element, the lower of the two invocations first. -/
structure Conflict where
  resource : Resource
  index : Nat
  first : InvocationId
  second : InvocationId
  kind : RaceKind
  deriving DecidableEq, Repr, Inhabited

/-- A set of invocations, in ascending order. -/
abbrev InvocationSet := List InvocationId

namespace InvocationSet

def insert (id : InvocationId) : InvocationSet → InvocationSet
  | [] => [id]
  | i :: rest => if id < i then id :: i :: rest else if id = i then i :: rest else i :: insert id rest

/-- The lowest member other than `me`. -/
def other? (ids : InvocationSet) (me : InvocationId) : Option InvocationId :=
  ids.find? (· ≠ me)

end InvocationSet

/-- What is known of the accesses to one element. -/
structure ElementLog where
  /-- The pattern before the first access. -/
  baseline : List UInt32
  /-- The pattern last stored. -/
  written : Option (List UInt32) := none
  writers : InvocationSet := []
  /-- The writers that stored something other than the baseline. -/
  changers : InvocationSet := []
  /-- The invocations that read the element before storing to it. -/
  blindReaders : InvocationSet := []
  /-- The invocations that used plain loads or stores. -/
  plain : InvocationSet := []
  atomic : InvocationSet := []
  deriving DecidableEq, Repr, Inhabited

namespace ElementLog

/-- Log an access of invocation `me`; the result names another invocation that it races with. -/
def observe (log : ElementLog) (touch : Touch) (me : InvocationId) :
    ElementLog × Option (InvocationId × RaceKind) :=
  match touch with
  | .atomic =>
    let log := { log with atomic := log.atomic.insert me }
    (log, (log.plain.other? me).map (·, .mixed))
  | .read =>
    let log := { log with plain := log.plain.insert me }
    match log.atomic.other? me with
    | some o => (log, some (o, .mixed))
    | none =>
      if log.writers.contains me then (log, none)
      else
        let log := { log with blindReaders := log.blindReaders.insert me }
        (log, (log.changers.other? me).map (·, .readWrite))
  | .write bits =>
    let log := { log with plain := log.plain.insert me }
    match log.atomic.other? me with
    | some o => (log, some (o, .mixed))
    | none =>
      let rival := if log.written.any (· != bits) then log.writers.other? me else none
      match rival with
      | some o => (log, some (o, .writeWrite))
      | none =>
        let log := { log with written := some bits, writers := log.writers.insert me }
        if bits = log.baseline then (log, none)
        else
          let log := { log with changers := log.changers.insert me }
          (log, (log.blindReaders.other? me).map (·, .readWrite))

end ElementLog

/-- An element of a resource. -/
structure Location where
  resource : Resource
  index : Nat
  deriving DecidableEq, Repr, Inhabited

/-- The logs of all elements touched so far. -/
structure AccessLog where
  entries : List (Location × ElementLog) := []
  deriving DecidableEq, Repr, Inhabited

namespace AccessLog

def get? (l : AccessLog) (place : Location) : Option ElementLog := l.entries.lookup place

/-- Replace the log of an element, or add one at the end. -/
def setEntry (place : Location) (log : ElementLog) :
    List (Location × ElementLog) → List (Location × ElementLog)
  | [] => [(place, log)]
  | (a, old) :: rest => if a = place then (a, log) :: rest else (a, old) :: setEntry place log rest

def set (l : AccessLog) (place : Location) (log : ElementLog) : AccessLog :=
  ⟨setEntry place log l.entries⟩

/-- Log an access to an element whose pattern before the access is `current`. -/
def observe (l : AccessLog) (place : Location) (current : List UInt32) (touch : Touch)
    (me : InvocationId) : AccessLog × Option Conflict :=
  let log := (l.get? place).getD { baseline := current }
  let (log, rival) := log.observe touch me
  (l.set place log, rival.map fun (o, kind) => ⟨place.resource, place.index, min o me, max o me, kind⟩)

end AccessLog

end ComputeShader
