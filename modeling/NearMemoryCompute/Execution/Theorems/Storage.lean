import NearMemoryCompute.Execution.Storage
import NearMemoryCompute.Execution.Theorems.Corruption

namespace NMC

-- The temporary file is open.
def Saving.opened : Saving → Bool
  | write | flush | close _ => true
  | _                       => false

theorem Saving.busy_of_opened {next : Saving} (h : next.opened) : next.busy := by
  cases next <;> first | rfl | cases h

-- The thread relies on the temporary file.
def Saving.relies : Saving → Bool
  | write | flush | close _ | replace => true
  | _                                 => false

namespace Storage

variable {ι : Type} [DecidableEq ι] {P : Bytes → Prop} {s s' : Storage ι} {i j : ι}
         {saver saver' : Saver}

theorem savers_goto (h : (s.goto i saver).savers j = some saver') :
    (j = i ∧ saver' = saver) ∨ (j ≠ i ∧ s.savers j = some saver') := by
  by_cases hj : j = i
  case pos =>
    subst hj
    simp only [goto, Function.update_self, Option.some.injEq] at h
    exact .inl ⟨rfl, h.symm⟩
  case neg =>
    simp only [goto, Function.update_of_ne hj] at h
    exact .inr ⟨hj, h⟩

-- The contents with which a run saves.
def Brings (P : Bytes → Prop) : Input ι → Prop
  | .save _ payload => ∀ bytes, PersistentStore.buildEnvelope payload = .ok bytes → P bytes
  | _               => True

-- The beginning of contents that are saved.
def Fragment (P : Bytes → Prop) (bytes : Bytes) : Prop :=
  ∃ whole, P whole ∧ bytes <+: whole

-- Whatever goes wrong, the file consists of what it was at first or of a part of saved contents.
structure Fragments (P : Bytes → Prop) (file : Option Bytes) (s : Storage ι) : Prop where
  bytes : ∀ ⦃i saver⦄, s.savers i = some saver → saver.next.busy → P saver.bytes
  file  : s.file = file ∨ ∃ b, s.file = some b ∧ Fragment P b
  tmp   : ∀ ⦃i saver⦄, s.savers i = some saver → saver.next.relies → ∀ b ∈ s.tmp, Fragment P b

namespace Fragments

variable {file tmp : Option Bytes} {owner : Option ι} {next : Saving}

theorem goto (hf : s.Fragments P file) (hb : saver.next.busy → P saver.bytes)
    (ht : saver.next.relies → ∀ b ∈ s.tmp, Fragment P b) : (s.goto i saver).Fragments P file where
  bytes j saver' hj hn := by
    rcases savers_goto hj with ⟨_, rfl⟩ | ⟨_, hj⟩
    · exact hb hn
    · exact hf.bytes hj hn
  file := hf.file
  tmp j saver' hj hn := by
    rcases savers_goto hj with ⟨_, rfl⟩ | ⟨_, hj⟩
    · exact ht hn
    · exact hf.tmp hj hn

omit [DecidableEq ι] in
theorem setTmp (hf : s.Fragments P file) (ht : ∀ b ∈ tmp, Fragment P b) :
    { s with tmp, owner }.Fragments P file :=
  { hf with tmp := fun _ _ _ _ => ht }

-- A thread goes on without a look at the files.
theorem advance (hf : s.Fragments P file) (hi : s.savers i = some saver) (hb : saver.next.busy)
    (hr : next.relies → saver.next.relies) :
    (s.goto i { saver with next }).Fragments P file := by
  have hp := hf.bytes hi hb
  exact hf.goto (fun _ => hp) fun hn => hf.tmp hi (hr hn)

-- A thread has written the temporary file.
theorem write (hf : s.Fragments P file) (hi : s.savers i = some saver) (hb : saver.next.busy)
    {bytes : Bytes} (hp : bytes <+: saver.bytes) :
    ({ s with tmp := some bytes, owner }.goto i { saver with next }).Fragments P file := by
  have hw := hf.bytes hi hb
  have ht : ∀ b ∈ some bytes, Fragment P b := by
    intro b hm
    cases hm
    exact ⟨saver.bytes, hw, hp⟩
  exact (hf.setTmp ht).goto (fun _ => hw) fun _ => ht

omit [DecidableEq ι] in
theorem remove (hf : s.Fragments P file) (ok : Bool) : (s.remove ok).Fragments P file := by
  unfold Storage.remove
  split
  case isTrue  => exact hf.setTmp (by simp)
  case isFalse => exact hf

omit [DecidableEq ι] in
theorem savers_remove (ok : Bool) : (s.remove ok).savers = s.savers := by
  unfold Storage.remove
  split <;> rfl

theorem proceed (hf : s.Fragments P file) (hi : s.savers i = some saver) (ok : Bool)
    (written : ℕ) : (s.proceed i saver ok written).Fragments P file := by
  unfold Storage.proceed
  cases hn : saver.next
  case create =>
    simp only
    split
    case isTrue  => exact hf.write hi (hn ▸ rfl) List.nil_prefix
    case isFalse => exact hf.advance hi (hn ▸ rfl) (by simp [Saving.relies])
  case write =>
    simp only
    split_ifs
    · exact hf.advance hi (hn ▸ rfl) fun _ => hn ▸ rfl
    · exact hf.write hi (hn ▸ rfl) (List.prefix_refl _)
    · exact hf.write hi (hn ▸ rfl) (List.take_prefix _ _)
  case flush => exact hf.advance hi (hn ▸ rfl) fun _ => hn ▸ rfl
  case close =>
    have hr : saver.next.relies := hn ▸ rfl
    have hf' : { s with owner := none }.Fragments P file := hf.setTmp (hf.tmp hi hr)
    simp only
    split_ifs
    · exact hf'.advance hi (hn ▸ rfl) fun _ => hr
    · exact hf'.advance hi (hn ▸ rfl) (by simp [Saving.relies])
  case discard =>
    exact (hf.remove ok).advance (savers_remove (s := s) ok ▸ hi) (hn ▸ rfl)
      (by simp [Saving.relies])
  case replace =>
    simp only
    split
    case h_1         => exact hf.advance hi (hn ▸ rfl) (by simp [Saving.relies])
    case h_2 tmp htm =>
      split
      case isFalse => exact hf.advance hi (hn ▸ rfl) (by simp [Saving.relies])
      case isTrue  =>
        have ht : Fragment P tmp := hf.tmp hi (hn ▸ rfl) tmp htm
        have hf' : { s with file := some tmp, tmp := none }.Fragments P file :=
          { bytes := hf.bytes, file := .inr ⟨tmp, rfl, ht⟩, tmp := by simp }
        exact hf'.advance hi (hn ▸ rfl) (by simp [Saving.relies])
  case giveUp =>
    exact (hf.remove ok).advance (savers_remove (s := s) ok ▸ hi) (hn ▸ rfl)
      (by simp [Saving.relies])
  case returned => exact hf

theorem step (hf : s.Fragments P file) {input : Input ι} (hb : Brings P input) :
    (step input s).Fragments P file := by
  cases input
  case save i payload =>
    simp only [Storage.step, Storage.save]
    split
    case isTrue  => exact hf
    case isFalse =>
      split
      case h_1 => exact hf.goto (by simp [Saving.busy]) (by simp [Saving.relies])
      case h_2 hp => exact hf.goto (fun _ => hb _ hp) (by simp [Saving.relies])
  case proceed i ok written =>
    simp only [Storage.step]
    split
    case h_1 => exact hf
    case h_2 hi => exact hf.proceed hi ok written
  case crash tmp =>
    simp only [Storage.step]
    exact { bytes := by simp, file := hf.file, tmp := by simp }

end Fragments

-- Some thread is about to move the temporary file.
def Ready (s : Storage ι) : Prop :=
  ∃ i saver, s.savers i = some saver ∧ saver.next = .replace

-- The temporary file is not spoiled by one thread while another one is about to move it.
def Considerate (s : Storage ι) : Input ι → Prop
  | .proceed i false _ =>
    ∀ saver, s.savers i = some saver → saver.next = .write ∨ saver.next = .flush → ¬s.Ready
  | _ => True

theorem ready_goto (h : (s.goto i saver).Ready) : saver.next = .replace ∨ s.Ready := by
  obtain ⟨j, saver', hj, hn⟩ := h
  rcases savers_goto hj with ⟨_, rfl⟩ | ⟨_, hj⟩
  · exact .inl hn
  · exact .inr ⟨j, saver', hj, hn⟩

-- What is known about a thread.
structure Consistent (P : Bytes → Prop) (s : Storage ι) (i : ι) (saver : Saver) : Prop where
  bytes   : saver.next.busy → P saver.bytes
  opened  : saver.next.opened → s.owner = some i
  fresh   : saver.next = .write → s.tmp = some []
  written : saver.next = .flush ∨ saver.next = .close true → s.tmp = some saver.bytes
  failed  : saver.next = .close false → ¬s.Ready

-- The file is never anything but what it was at first or saved contents.
structure Whole (P : Bytes → Prop) (file : Option Bytes) (s : Storage ι) : Prop where
  savers : ∀ ⦃i saver⦄, s.savers i = some saver → s.Consistent P i saver
  file   : s.file = file ∨ ∃ b, s.file = some b ∧ P b
  ready  : s.Ready → s.owner = none → ∀ b ∈ s.tmp, P b

omit [DecidableEq ι] in
-- Nothing but its contents is known about a thread that does not have the temporary file open.
theorem Consistent.of_closed (hb : saver.next.busy → P saver.bytes)
    (ho : saver.next.opened = false) : s.Consistent P i saver where
  bytes   := hb
  opened  := by simp [ho]
  fresh   := by
    intro hn
    simp [hn, Saving.opened] at ho
  written := by
    rintro (hn | hn) <;> simp [hn, Saving.opened] at ho
  failed  := by
    intro hn
    simp [hn, Saving.opened] at ho

namespace Whole

variable {file : Option Bytes} {next : Saving}

-- A thread goes on that leaves the files alone.
theorem goto (hw : s.Whole P file) (hn : saver.next ≠ .replace) (hi : s.Consistent P i saver) :
    (s.goto i saver).Whole P file where
  savers j saver' hj := by
    have hr : (s.goto i saver).Ready → s.Ready := fun h => (ready_goto h).resolve_left hn
    have hf : s.Consistent P j saver' := by
      rcases savers_goto hj with ⟨rfl, rfl⟩ | ⟨_, hj⟩
      · exact hi
      · exact hw.savers hj
    exact { hf with failed := fun hc h => hf.failed hc (hr h) }
  file    := hw.file
  ready h := hw.ready ((ready_goto h).resolve_left hn)

theorem leave (hw : s.Whole P file) (hi : s.savers i = some saver) (hb : saver.next.busy)
    (hn : next.relies = false) : (s.goto i { saver with next }).Whole P file := by
  have hp := (hw.savers hi).bytes hb
  refine hw.goto (by rintro rfl; cases hn) (.of_closed (fun _ => hp) ?_)
  cases next <;> first | rfl | cases hn

-- A thread goes on that has changed the files. No other one has the temporary file open.
theorem change (hw : s.Whole P file) (he : s'.savers = s.savers)
    (ho : s.owner = none ∨ s.owner = some i) (hf : s'.file = file ∨ ∃ b, s'.file = some b ∧ P b)
    (hr : (s'.goto i saver).Ready → s'.owner = none → ∀ b ∈ s'.tmp, P b)
    (hi : (s'.goto i saver).Consistent P i saver) : (s'.goto i saver).Whole P file where
  savers j saver' hj := by
    rcases savers_goto hj with ⟨rfl, rfl⟩ | ⟨hn, hj⟩
    · exact hi
    · have hf := hw.savers (he ▸ hj)
      refine .of_closed hf.bytes (Bool.eq_false_iff.mpr fun hop => ?_)
      have hj := hf.opened hop
      rcases ho with ho | ho
      · simp [ho] at hj
      · rw [ho, Option.some_inj] at hj
        exact hn hj.symm
  file  := hf
  ready := hr

theorem remove (hw : s.Whole P file) (hi : s.savers i = some saver) (hb : saver.next.busy)
    (ok : Bool) {result : Result Unit} :
    ((s.remove ok).goto i { saver with next := .returned result }).Whole P file := by
  unfold Storage.remove
  split
  case isFalse    => exact hw.leave hi hb rfl
  case isTrue hok =>
    have hp := (hw.savers hi).bytes hb
    exact hw.change rfl (.inl hok.2) hw.file (by simp [Storage.goto]) (.of_closed (fun _ => hp) rfl)

theorem create (hw : s.Whole P file) (hi : s.savers i = some saver) (hn : saver.next = .create)
    (ho : s.owner = none) :
    ({ s with tmp := some [], owner := some i }.goto i { saver with next := .write }).Whole
      P file := by
  have hp := (hw.savers hi).bytes (hn ▸ rfl)
  refine hw.change rfl (.inl ho) hw.file (by simp) ?_
  exact {
    bytes   := fun _ => hp
    opened  := fun _ => rfl
    fresh   := fun _ => rfl
    written := by simp
    failed  := by simp }

-- The temporary file has been written as a whole.
theorem write (hw : s.Whole P file) (hi : s.savers i = some saver) (hn : saver.next = .write) :
    ({ s with tmp := some saver.bytes }.goto i { saver with next := .flush }).Whole P file := by
  have hp := (hw.savers hi).bytes (hn ▸ rfl)
  have ho := (hw.savers hi).opened (hn ▸ rfl)
  refine hw.change rfl (.inr ho) hw.file (by simp [ho]) ?_
  exact {
    bytes   := fun _ => hp
    opened  := fun _ => ho
    fresh   := by simp
    written := fun _ => rfl
    failed  := by simp }

-- The temporary file is spoiled.
theorem spoil (hw : s.Whole P file) (hi : s.savers i = some saver) (ho : saver.next.opened)
    (hr : ¬s.Ready) (tmp : Option Bytes) :
    ({ s with tmp }.goto i { saver with next := .close false }).Whole P file := by
  have hp := (hw.savers hi).bytes (Saving.busy_of_opened ho)
  have ho := (hw.savers hi).opened ho
  refine hw.change rfl (.inr ho) hw.file (by simp [ho]) ?_
  exact {
    bytes   := fun _ => hp
    opened  := fun _ => ho
    fresh   := by simp
    written := by simp
    failed  := fun _ h => hr ((ready_goto h).resolve_left (by simp)) }

theorem flush (hw : s.Whole P file) (hi : s.savers i = some saver) (hn : saver.next = .flush) :
    (s.goto i { saver with next := .close true }).Whole P file := by
  have hf := hw.savers hi
  refine hw.goto (by simp) ?_
  exact {
    bytes   := fun _ => hf.bytes (hn ▸ rfl)
    opened  := fun _ => hf.opened (hn ▸ rfl)
    fresh   := by simp
    written := fun _ => hf.written (.inl hn)
    failed  := by simp }

theorem close (hw : s.Whole P file) (hi : s.savers i = some saver) {ok : Bool}
    (hn : saver.next = .close ok) :
    ({ s with owner := none }.goto i
      { saver with next := if ok then .replace else .discard }).Whole P file := by
  have hf := hw.savers hi
  have hp := hf.bytes (hn ▸ rfl)
  refine hw.change rfl (.inr (hf.opened (hn ▸ rfl))) hw.file ?_
    (.of_closed (fun _ => hp) (by cases ok <;> rfl))
  intro hr _ b hb
  cases ok
  case false => exact absurd ((ready_goto hr).resolve_left (by simp)) (hf.failed hn)
  case true  =>
    have ht : s.tmp = some saver.bytes := hf.written (.inr hn)
    have hb : s.tmp = some b := hb
    rw [ht, Option.some_inj] at hb
    exact hb ▸ hp

theorem replace (hw : s.Whole P file) (hi : s.savers i = some saver) (hn : saver.next = .replace)
    {tmp : Bytes} (ht : s.tmp = some tmp) (ho : s.owner = none) :
    ({ s with file := some tmp, tmp := none }.goto i
      { saver with next := .returned (.ok ()) }).Whole P file := by
  have hp : P tmp := hw.ready ⟨i, saver, hi, hn⟩ ho tmp ht
  have hb := (hw.savers hi).bytes (hn ▸ rfl)
  exact hw.change rfl (.inl ho) (.inr ⟨tmp, rfl, hp⟩) (by simp [Storage.goto])
    (.of_closed (fun _ => hb) rfl)

theorem proceed (hw : s.Whole P file) (hi : s.savers i = some saver) (ok : Bool) (written : ℕ)
    (hc : s.Considerate (.proceed i ok written)) :
    (s.proceed i saver ok written).Whole P file := by
  unfold Storage.proceed
  cases hn : saver.next
  case create =>
    simp only
    split
    case isTrue ho => exact hw.create hi hn ho.2
    case isFalse   => exact hw.leave hi (hn ▸ rfl) rfl
  case write =>
    simp only
    split_ifs with he hok
    · have ht : s.tmp = some saver.bytes := he ▸ (hw.savers hi).fresh hn
      have hw' := hw.write hi hn
      rwa [← ht] at hw'
    · exact hw.write hi hn
    · obtain rfl : ok = false := by simpa using hok
      exact hw.spoil hi (hn ▸ rfl) (hc saver hi (.inl hn)) _
  case flush =>
    cases ok
    case true  => exact hw.flush hi hn
    case false => exact hw.spoil hi (hn ▸ rfl) (hc saver hi (.inr hn)) _
  case close ok =>
    have hw' := hw.close hi hn
    cases ok <;> exact hw'
  case discard => exact hw.remove hi (hn ▸ rfl) ok
  case replace =>
    simp only
    split
    case h_1        => exact hw.leave hi (hn ▸ rfl) rfl
    case h_2 tmp ht =>
      split
      case isTrue ho => exact hw.replace hi hn ht ho.2
      case isFalse   => exact hw.leave hi (hn ▸ rfl) rfl
  case giveUp   => exact hw.remove hi (hn ▸ rfl) ok
  case returned => exact hw

theorem step (hw : s.Whole P file) {input : Input ι} (hb : Brings P input)
    (hc : s.Considerate input) : (step input s).Whole P file := by
  cases input
  case save i payload =>
    simp only [Storage.step, Storage.save]
    split
    case isTrue  => exact hw
    case isFalse =>
      split
      case h_1    => exact hw.goto (by simp) (.of_closed (by simp [Saving.busy]) rfl)
      case h_2 hp => exact hw.goto (by simp) (.of_closed (fun _ => hb _ hp) rfl)
  case proceed i ok written =>
    simp only [Storage.step]
    split
    case h_1    => exact hw
    case h_2 hi => exact hw.proceed hi ok written hc
  case crash tmp =>
    simp only [Storage.step]
    exact { savers := by simp, file := hw.file, ready := by simp [Ready] }

end Whole

-- Some thread has been asked to save these contents.
def Submitted (run : List (Input ι)) (bytes : Bytes) : Prop :=
  ∃ i payload, .save i payload ∈ run ∧ PersistentStore.buildEnvelope payload = .ok bytes

omit [DecidableEq ι] in
theorem brings_submitted (run : List (Input ι)) :
    Machine.EachStep (fun _ input => Brings (Submitted run) input) run := by
  intro input past hs
  cases input
  case save i payload => exact fun bytes hb => ⟨i, payload, hs.mem (.head _), hb⟩
  all_goals trivial

theorem fragments_after (file : Option Bytes) (run : List (Input ι)) :
    (machine.after { file } run).Fragments (Submitted run) file :=
  machine.invariant_of_eachStep (I := fun _ s => s.Fragments (Submitted run) file) _
    { bytes := by simp, file := .inl rfl, tmp := by simp }
    (fun _ _ hb hf => hf.step hb) (brings_submitted run)

end Storage

namespace PersistentStore

section Save

variable {payload bytes : Bytes} (h : buildEnvelope payload = .ok bytes)

include h

theorem save_cannotCreate : save .cannotCreate payload =
    makeError "E_PERSIST_WRITE" "cannot create temp persistence file" := by
  rw [save, h]
  rfl

theorem save_cannotWrite : save .cannotWrite payload =
    makeError "E_PERSIST_WRITE" "failure writing temp persistence file" := by
  rw [save, h]
  rfl

theorem save_cannotReplace : save .cannotReplace payload =
    makeError "E_PERSIST_REPLACE" "atomic replace failed" := by
  rw [save, h]
  rfl

theorem save_replaced : save .replaced payload = .ok bytes := by
  rw [save, h]
  rfl

end Save

-- A part of saved contents that is accepted is all of them.
theorem eq_of_fragment {payload whole bytes : Bytes}
    (hw : buildEnvelope payload = .ok whole) (hp : bytes <+: whole) {α : Type} {decode : Reader α}
    {a : α} (hl : load (.contents bytes) decode = .ok a) : bytes = whole := by
  obtain ⟨r, hr, hl⟩ := bind_eq_ok hl
  obtain ⟨payload', ho, _⟩ := bind_eq_ok hl
  obtain ⟨rfl, hn⟩ := eq_envelope_of_openEnvelope (buildEnvelope_ok hw).1
  exact Damaged.eq_of_openEnvelope (.cut hp) hn (readWholeFile_ok hr ▸ ho)

end PersistentStore

-- Threads save at the same time, any system call fails, and the process crashes, as often as it may
-- be. What is loaded from the file afterwards has been saved as a whole, unless the file is still
-- the one from the beginning.
theorem loaded_was_saved {ι : Type} [DecidableEq ι] (file : Option Bytes)
    (run : List (Storage.Input ι)) {bytes : Bytes}
    (hf : (Storage.machine.after { file } run).file = some bytes)
    {α : Type} {decode : Reader α} {a : α}
    (hl : PersistentStore.load (.contents bytes) decode = .ok a) :
    file = some bytes ∨ ∃ i payload, .save i payload ∈ run ∧
      PersistentStore.buildEnvelope payload = .ok bytes ∧ decode payload = some (a, []) := by
  rcases (Storage.fragments_after file run).file with he | ⟨b, hb, whole, hs, hp⟩
  · exact .inl (he ▸ hf)
  · obtain rfl : b = bytes := Option.some_inj.mp (hb.symm.trans hf)
    obtain ⟨i, payload, hm, hw⟩ := hs
    obtain rfl := PersistentStore.eq_of_fragment hw hp hl
    have hs := PersistentStore.save_replaced hw
    exact .inr ⟨i, payload, hm, hw, (PersistentStore.load_saved hs).mp hl⟩

-- The bytes of one save, which stops before the file is closed, and of another one after a crash.
theorem loaded_was_saved_of_crash :
    let run : List (Storage.Input Bool) := [
      .proceed true true 0, .proceed true true 0, .proceed true true 0, .proceed true true 0,
      .proceed true true 0, .save true [1, 2, 3], .crash (some [7]),
      .proceed false true 0, .proceed false true 0, .save false [4]]
    ∃ bytes, (Storage.machine.after { file := none } run).file = some bytes ∧
      (none = some bytes ∨ ∃ i payload, .save i payload ∈ run ∧
        PersistentStore.buildEnvelope payload = .ok bytes ∧
        some (payload, ([] : Bytes)) = some ([1, 2, 3], [])) := by
  intro run
  have hs : (Storage.machine.after { file := none } run).file =
      (PersistentStore.buildEnvelope [1, 2, 3]).toOption := by decide +kernel
  obtain ⟨bytes, hb⟩ : ∃ bytes, PersistentStore.buildEnvelope [1, 2, 3] = .ok bytes :=
    ⟨_, PersistentStore.buildEnvelope_eq (by decide)⟩
  have hl : PersistentStore.load (.contents bytes) (fun b => some (b, [])) = .ok [1, 2, 3] := by
    have hr := PersistentStore.save_replaced hb
    exact (PersistentStore.load_saved hr).mpr rfl
  have hf : (Storage.machine.after { file := none } run).file = some bytes := by
    rw [hs, hb]
    rfl
  exact ⟨bytes, hf, loaded_was_saved none run hf hl⟩

-- As long as no thread spoils the temporary file that another one is about to move, the file is
-- replaced as a whole or not at all.
theorem save_atomic {ι : Type} [DecidableEq ι] (file : Option Bytes)
    (run : List (Storage.Input ι))
    (hc : Machine.EachStep
      (fun past input => (Storage.machine.after { file } past).Considerate input) run) :
    (Storage.machine.after { file } run).file = file ∨
    ∃ i payload, .save i payload ∈ run ∧
      (Storage.machine.after { file } run).file =
        (PersistentStore.buildEnvelope payload).toOption := by
  have hw := Storage.machine.invariant_of_eachStep
    (C := fun past input => (Storage.machine.after { file } past).Considerate input ∧
      Storage.Brings (Storage.Submitted run) input)
    (I := fun _ s => s.Whole (Storage.Submitted run) file) { file }
    { savers := by simp, file := .inl rfl, ready := by simp [Storage.Ready] }
    (fun _ _ hi hw => hw.step hi.2 hi.1)
    fun _ _ hs => ⟨hc hs, Storage.brings_submitted run hs⟩
  rcases hw.file with he | ⟨b, hb, i, payload, hm, hp⟩
  · exact .inl he
  · refine .inr ⟨i, payload, hm, ?_⟩
    rw [hb, hp]
    rfl

-- The write of one thread fails before another one has opened the temporary file. When the first
-- one has returned, the other one replaces the file.
theorem save_atomic_of_failed_write :
    let run : List (Storage.Input Bool) := [
      .proceed true true 0, .proceed true true 0, .proceed true true 0, .proceed true true 0,
      .proceed true true 0, .proceed false true 0, .proceed false true 0, .proceed false false 3,
      .proceed false true 0, .save true [1, 2, 3], .save false [4]]
    Machine.EachStep
      (fun past input => (Storage.machine.after { file := some [] } past).Considerate input) run ∧
    ((Storage.machine.after { file := some [] } run).file = some [] ∨
    ∃ i payload, .save i payload ∈ run ∧
      (Storage.machine.after { file := some [] } run).file =
        (PersistentStore.buildEnvelope payload).toOption) := by
  intro run
  refine ⟨?considerate, save_atomic _ _ ?considerate⟩
  simp only [run, Machine.eachStep_cons, Machine.eachStep_nil, Storage.Considerate, and_true,
    true_and]
  rintro _ _ _ ⟨i, saver, hi, hn⟩
  have hs : ∀ i : Bool, ∀ next ∈ ((Storage.machine.after { file := some [] }
      [.proceed false true 0, .save true [1, 2, 3], .save false [4]]).savers i).map (·.next),
      next ≠ .replace := by
    decide +kernel
  exact hs i _ (Option.mem_map_of_mem _ hi) hn

-- If the write of a thread fails when another one is about to move the file, then a torn file takes
-- the place of the old one.
example :
    let run : List (Storage.Input Bool) := [
      .proceed true true 0,
      .proceed false true 0, .proceed false false 3, .proceed false true 0, .save false [4],
      .proceed true true 0, .proceed true true 0, .proceed true true 0, .proceed true true 0,
      .save true [1, 2, 3]]
    (Storage.machine.after { file := none } run).file =
      (PersistentStore.buildEnvelope [4]).toOption.map (·.take 3) := by
  decide +kernel

namespace Storage

variable {ι : Type} [DecidableEq ι]

-- How many steps are left at most.
def stepsLeft : Saving → ℕ
  | .create     => 6
  | .write      => 5
  | .flush      => 4
  | .close _    => 3
  | .discard    => 2
  | .replace    => 2
  | .giveUp     => 1
  | .returned _ => 0

-- How far a thread has got that saves on its own.
def Alone (payload bytes : Bytes) (file : Option Bytes) (i : ι) (s : Storage ι) : Saving → Prop
  | .create          => s.owner = none ∧ s.file = file
  | .write           => s.owner = some i ∧ s.file = file ∧ s.tmp = some []
  | .flush           => s.owner = some i ∧ s.file = file ∧ s.tmp = some bytes
  | .close true      => s.owner = some i ∧ s.file = file ∧ s.tmp = some bytes
  | .close false     => s.owner = some i ∧ s.file = file
  | .discard         => s.owner = none ∧ s.file = file
  | .replace         => s.owner = none ∧ s.file = file ∧ s.tmp = some bytes
  | .giveUp          => s.owner = none ∧ s.file = file
  | .returned result => ∃ disk, result = (PersistentStore.save disk payload).map (fun _ => ()) ∧
    s.file = (PersistentStore.save disk payload).toOption.or file

variable {payload bytes : Bytes} {file : Option Bytes} {s : Storage ι} {i : ι} {saver : Saver}

theorem Alone.goto {next : Saving} (ha : Alone payload bytes file i s next) :
    ∃ next', (s.goto i { saver with next }).savers i = some { saver with next := next' } ∧
      stepsLeft next' = stepsLeft next ∧
      Alone payload bytes file i (s.goto i { saver with next }) next' := by
  refine ⟨next, by simp [Storage.goto], rfl, ?_⟩
  cases next
  case close ok => cases ok <;> exact ha
  all_goals exact ha

omit [DecidableEq ι] in
-- A failure leaves the file as it is.
theorem Alone.failed {disk : Disk} {e : Error} (hs : PersistentStore.save disk payload = .error e)
    (hf : s.file = file) (bytes : Bytes) (i : ι) :
    Alone payload bytes file i s (.returned (.error e)) := by
  refine ⟨disk, ?_, ?_⟩
  · rw [hs]
    rfl
  · rw [hs]
    exact hf

omit [DecidableEq ι] in
theorem file_remove (s : Storage ι) (ok : Bool) : (s.remove ok).file = s.file := by
  unfold remove
  split <;> rfl

theorem Alone.proceed (hp : PersistentStore.buildEnvelope payload = .ok saver.bytes)
    (hi : s.savers i = some saver) (ha : Alone payload saver.bytes file i s saver.next) (ok : Bool)
    (written : ℕ) : ∃ next, stepsLeft next ≤ stepsLeft saver.next - 1 ∧
      (s.proceed i saver ok written).savers i = some { saver with next } ∧
      Alone payload saver.bytes file i (s.proceed i saver ok written) next := by
  suffices h : ∃ s' next, s.proceed i saver ok written = s'.goto i { saver with next } ∧
      stepsLeft next ≤ stepsLeft saver.next - 1 ∧ Alone payload saver.bytes file i s' next by
    obtain ⟨s', next, he, hn, ha⟩ := h
    obtain ⟨next', hg, hl, ha⟩ := ha.goto
    exact ⟨next', hl ▸ hn, he ▸ hg, he ▸ ha⟩
  unfold Storage.proceed
  cases hn : saver.next <;> simp only [hn, Alone] at ha ⊢
  case create =>
    split
    case isTrue  => exact ⟨_, _, rfl, by simp [stepsLeft], rfl, ha.2, rfl⟩
    case isFalse =>
      have hs := PersistentStore.save_cannotCreate hp
      exact ⟨_, _, rfl, by simp [stepsLeft], Alone.failed hs ha.2 saver.bytes i⟩
  case write =>
    split_ifs with he
    · exact ⟨_, _, rfl, by simp [stepsLeft], ha.1, ha.2.1, he ▸ ha.2.2⟩
    · exact ⟨_, _, rfl, by simp [stepsLeft], ha.1, ha.2.1, rfl⟩
    · exact ⟨_, _, rfl, by simp [stepsLeft], ha.1, ha.2.1⟩
  case flush =>
    refine ⟨_, _, rfl, by simp [stepsLeft], ?_⟩
    cases ok
    case false => exact ⟨ha.1, ha.2.1⟩
    case true  => exact ha
  case close ok =>
    cases ok <;> exact ⟨_, _, rfl, by simp [stepsLeft], rfl, ha.2⟩
  case discard =>
    have hf := (file_remove s ok).trans ha.2
    exact ⟨_, _, rfl, by simp [stepsLeft],
      Alone.failed (PersistentStore.save_cannotWrite hp) hf saver.bytes i⟩
  case replace =>
    rw [ha.2.2]
    simp only
    split
    case isFalse => exact ⟨_, _, rfl, by simp [stepsLeft], ha.1, ha.2.1⟩
    case isTrue  =>
      refine ⟨_, _, rfl, by simp [stepsLeft], .replaced, ?_, ?_⟩ <;>
      · rw [PersistentStore.save_replaced hp]
        rfl
  case giveUp =>
    have hf := (file_remove s ok).trans ha.2
    exact ⟨_, _, rfl, by simp [stepsLeft],
      Alone.failed (PersistentStore.save_cannotReplace hp) hf saver.bytes i⟩
  case returned result =>
    refine ⟨s, .returned result, ?_, Nat.zero_le _, ha⟩
    rw [Storage.goto, ← hn, Function.update_eq_self_iff.mpr hi.symm]

-- A thread that goes on without any other thread.
def rounds (i : ι) (answers : List (Bool × ℕ)) : List (Input ι) :=
  answers.map fun answer => .proceed i answer.fst answer.snd

theorem step_proceed (hi : s.savers i = some saver) {ok : Bool} {written : ℕ} :
    step (.proceed i ok written) s = s.proceed i saver ok written := by
  simp only [step, hi]

-- A thread that has returned does nothing.
theorem rounds_returned (hi : s.savers i = some saver) {result : Result Unit}
    (hr : saver.next = .returned result) (answers : List (Bool × ℕ)) :
    machine.after s (rounds i answers) = s := by
  induction answers
  case nil                 => rfl
  case cons answer answers h =>
    have he : machine.after s (rounds i (answer :: answers)) =
        step (.proceed i answer.fst answer.snd) (machine.after s (rounds i answers)) := rfl
    rw [he, h, step_proceed hi, proceed, hr]

theorem Alone.rounds (hp : PersistentStore.buildEnvelope payload = .ok saver.bytes)
    (hi : s.savers i = some saver) (ha : Alone payload saver.bytes file i s saver.next)
    (answers : List (Bool × ℕ)) : ∃ next, stepsLeft next ≤ stepsLeft saver.next - answers.length ∧
      (machine.after s (rounds i answers)).savers i = some { saver with next } ∧
      Alone payload saver.bytes file i (machine.after s (rounds i answers)) next := by
  induction answers
  case nil => exact ⟨saver.next, Nat.le_refl _, hi, ha⟩
  case cons answer answers h =>
    obtain ⟨next, hn, hi, ha⟩ := h
    have he : machine.after s (Storage.rounds i (answer :: answers)) =
        (machine.after s (Storage.rounds i answers)).proceed i { saver with next }
          answer.fst answer.snd := step_proceed hi
    obtain ⟨next', hn', hi', ha'⟩ :=
      @Alone.proceed ι _ payload file _ i { saver with next } hp hi ha answer.fst answer.snd
    rw [he]
    refine ⟨next', ?_, hi', ha'⟩
    have hn' : stepsLeft next' ≤ stepsLeft next - 1 := hn'
    rw [List.length_cons]
    omega

end Storage

-- A save that is not disturbed by other threads ends after six system calls at most, with a result
-- and a file as they are told by what has become of the temporary file.
theorem save_refines {ι : Type} [DecidableEq ι] (s : Storage ι) (i : ι) (payload : Bytes)
    (answers : List (Bool × ℕ)) (ho : s.owner = none)
    (hi : (s.savers i).all fun saver => !saver.next.busy) (hn : 6 ≤ answers.length) :
    let s' := Storage.machine.after s (Storage.rounds i answers ++ [.save i payload])
    ∃ disk bytes, s'.file = (PersistentStore.save disk payload).toOption.or s.file ∧
      s'.savers i = some {
        bytes
        next := .returned ((PersistentStore.save disk payload).map fun _ => ()) } := by
  intro s'
  have hb : ¬(s.savers i).any (·.next.busy) := by
    cases hs : s.savers i <;> simp_all
  have he : s' = Storage.machine.after (s.save i payload) (Storage.rounds i answers) := by
    rw [show s' = _ from Machine.after_append ..]
    simp [Machine.after, Storage.machine, Storage.step, hb]
  rw [he, Storage.save]
  cases hp : PersistentStore.buildEnvelope payload
  case error e =>
    have hr : PersistentStore.save .replaced payload = .error e := by
      rw [PersistentStore.save, hp]
      rfl
    have hi : (s.goto i { bytes := [], next := .returned (.error e) }).savers i =
        some { bytes := [], next := .returned (.error e) } := by simp [Storage.goto]
    refine ⟨.replaced, [], ?_⟩
    rw [hr, Storage.rounds_returned hi rfl answers]
    exact ⟨rfl, hi⟩
  case ok bytes =>
    have hi : (s.goto i { bytes, next := .create }).savers i = some { bytes, next := .create } := by
      simp [Storage.goto]
    have ha : Storage.Alone payload bytes s.file i (s.goto i { bytes, next := .create }) .create :=
      ⟨ho, rfl⟩
    obtain ⟨next, hl, hi, ha⟩ := Storage.Alone.rounds hp hi ha answers
    have hz : Storage.stepsLeft next = 0 := by
      have h₆ : Storage.stepsLeft next ≤ 6 - answers.length := hl
      omega
    obtain ⟨result, rfl⟩ : ∃ result, next = .returned result := by
      cases next <;> simp [Storage.stepsLeft] at hz ⊢
    obtain ⟨disk, rfl, hf⟩ := ha
    exact ⟨disk, bytes, hf, hi⟩

-- The file can not be flushed.
theorem save_refines_of_failure :
    let s : Storage Unit := { file := some [7] }
    let s' := Storage.machine.after s (Storage.rounds ()
      [(true, 0), (true, 0), (true, 0), (false, 0), (true, 0), (true, 0)] ++ [.save () [1, 2, 3]])
    ∃ disk bytes, s'.file = (PersistentStore.save disk [1, 2, 3]).toOption.or s.file ∧
      s'.savers () = some {
        bytes
        next := .returned ((PersistentStore.save disk [1, 2, 3]).map fun _ => ()) } :=
  save_refines _ () [1, 2, 3] _ rfl rfl (by decide)

end NMC
