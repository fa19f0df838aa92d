import NearMemoryCompute.Execution.Recovery
import NearMemoryCompute.Library.Parsing

namespace NMC

open Parser

namespace Reader

variable {α : Type} {t : Tag}

theorem getTable_go_keyed {id : α → Id t} {get : Reader α} {n : ℕ} {table : Table (Id t) α}
    (h : Table.Keyed id table) : Ensures (getTable.go id get n table) (Table.Keyed id) := by
  induction n generalizing table
  case zero => exact .pure h
  case succ n hi => exact .skip fun v => hi (h.insert rfl)

-- Whatever bytes a table is read from, its entries are stored under their own identities.
theorem getTable_keyed {id : α → Id t} {get : Reader α} :
    Ensures (getTable id get) (Table.Keyed id) :=
  .skip fun _ => .skip fun _ => getTable_go_keyed .empty

end Reader

-- What can be relied on about a state that has been read, whatever bytes it has been read from.
-- Dynamic evidence is never stored.
structure Decoded (st : RuntimeState) : Prop where
  operations    : Table.Keyed OperationSpec.id st.operations
  plans         : Table.Keyed ExecutionPlan.id st.plans
  targetRuntime : st.targetRuntime = ∅

open Reader in
theorem decodeState_ensures : Ensures decodeState Decoded := by
  -- The coordinator, the epoch, and the tables before the operations
  iterate 8 refine .skip fun _ => ?_
  refine .bind getTable_keyed fun operations ho => ?_
  refine .skip fun _ => ?_
  refine .bind getTable_keyed fun plans hp => ?_
  refine .skip fun _ => ?_
  exact .pure ⟨ho, hp, rfl⟩

theorem bind_eq_ok {α β : Type} {x : Result α} {f : α → Result β} {b : β}
    (h : x >>= f = .ok b) : ∃ a, x = .ok a ∧ f a = .ok b := by
  cases x
  case error => cases h
  case ok a  => exact ⟨a, rfl, h⟩

namespace PersistentStore

theorem orError_ok {α : Type} {o : Option α} {code message : String} {a : α}
    (h : orError o code message = .ok a) : o = some a := by
  unfold orError at h
  split at h
  case h_1 =>
    cases h
    rfl
  case h_2 => cases h

theorem require_ok {c : Prop} [Decidable c] {code message : String}
    (h : require c code message = .ok ()) : c := by
  unfold require at h
  split_ifs at h with hc
  · exact hc
  · cases h

theorem load_ok {α : Type} {file : File} {decode : Reader α} {a : α}
    (h : load file decode = .ok a) : ∃ payload rest, decode payload = some (a, rest) := by
  have ⟨_, _, h⟩ := bind_eq_ok h
  have ⟨payload, _, h⟩ := bind_eq_ok h
  have ⟨⟨decoded, rest⟩, hd, h⟩ := bind_eq_ok h
  have ⟨_, _, h⟩ := bind_eq_ok h
  cases h
  exact ⟨payload, rest, orError_ok hd⟩

end PersistentStore

theorem decoded_of_load {file : File} {st : RuntimeState}
    (h : PersistentStore.load file decodeState = .ok st) : Decoded st := by
  have ⟨_, _, hd⟩ := PersistentStore.load_ok h
  exact decodeState_ensures hd

end NMC
