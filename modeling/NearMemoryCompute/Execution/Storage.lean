import NearMemoryCompute.Execution.Persistence
import NearMemoryCompute.Library.Machine

namespace NMC

-- What a thread does next that is in `PersistentStore::save`.
inductive Saving
  | create
  | write
  | flush
  | close (ok : Bool)
  -- The temporary file is deleted, since it could not be written
  | discard
  | replace
  -- The temporary file is deleted, since it could not be moved
  | giveUp
  | returned (result : Result Unit)
deriving DecidableEq

def Saving.busy : Saving → Bool
  | returned _ => false
  | _          => true

-- A thread with the contents that it saves.
structure Saver where
  bytes : Bytes
  next  : Saving

-- The file, the temporary file beside it, and who has the temporary file open. It is opened without
-- sharing, so as long as it is open no other thread can open, move or delete it.
structure Storage (ι : Type) where
  file   : Option Bytes
  tmp    : Option Bytes     := none
  owner  : Option ι         := none
  savers : ι → Option Saver := fun _ => none

namespace Storage

-- What can happen next. Each system call is one step, which the system may refuse. A write that
-- fails can have written a part of the bytes. In a crash all threads end and files are closed. Then
-- nothing is known about the temporary file, which may not have been flushed.
inductive Input (ι : Type)
  | save (i : ι) (payload : Bytes)
  | proceed (i : ι) (ok : Bool) (written : ℕ)
  | crash (tmp : Option Bytes)

variable {ι : Type} [DecidableEq ι]

def goto (s : Storage ι) (i : ι) (saver : Saver) : Storage ι :=
  { s with savers := Function.update s.savers i (some saver) }

def save (s : Storage ι) (i : ι) (payload : Bytes) : Storage ι :=
  match PersistentStore.buildEnvelope payload with
  | .error e  => s.goto i { bytes := [], next := .returned (.error e) }
  | .ok bytes => s.goto i { bytes, next := .create }

def remove (s : Storage ι) (ok : Bool) : Storage ι :=
  if ok ∧ s.owner = none then { s with tmp := none } else s

def proceed (s : Storage ι) (i : ι) (saver : Saver) (ok : Bool) (written : ℕ) : Storage ι :=
  let goto (next : Saving) (s : Storage ι) : Storage ι := s.goto i { saver with next }
  match saver.next with
  | .create =>
    if ok ∧ s.owner = none then goto .write { s with tmp := some [], owner := some i }
    else
      goto (.returned (makeError "E_PERSIST_WRITE" "cannot create temp persistence file")) s
  | .write =>
    if saver.bytes = [] then goto .flush s
    else if ok then goto .flush { s with tmp := some saver.bytes }
    else goto (.close false) { s with tmp := some (saver.bytes.take written) }
  | .flush => goto (.close ok) s
  | .close ok =>
    if ok then goto .replace { s with owner := none } else goto .discard { s with owner := none }
  | .discard =>
    goto (.returned (makeError "E_PERSIST_WRITE" "failure writing temp persistence file"))
      (s.remove ok)
  | .replace =>
    match s.tmp with
    | none     => goto .giveUp s
    | some tmp =>
      if ok ∧ s.owner = none then
        goto (.returned (.ok ())) { s with file := some tmp, tmp := none }
      else goto .giveUp s
  | .giveUp =>
    goto (.returned (makeError "E_PERSIST_REPLACE" "atomic replace failed")) (s.remove ok)
  | .returned _ => s

-- A thread that has not returned from `PersistentStore::save` can not call it.
def step (input : Input ι) (s : Storage ι) : Storage ι :=
  match input with
  | .save i payload => if (s.savers i).any (·.next.busy) then s else s.save i payload
  | .proceed i ok written =>
    match s.savers i with
    | none       => s
    | some saver => s.proceed i saver ok written
  | .crash tmp => { file := s.file, tmp }

def machine : Machine (Storage ι) (Input ι) Unit where
  step input s := ((), step input s)

end Storage
end NMC
