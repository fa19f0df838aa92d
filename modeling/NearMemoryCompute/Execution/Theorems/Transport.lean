import NearMemoryCompute.Execution.Socket
import NearMemoryCompute.Execution.Theorems.Frame

namespace NMC

def RecvCall.isArrived : RecvCall → Bool
  | arrived _ => true
  | _         => false

def RecvCall.isFailed : RecvCall → Bool
  | failed _ => true
  | _        => false

-- How often something has arrived.
def arrivals (calls : List RecvCall) : ℕ :=
  calls.countP RecvCall.isArrived

theorem arrivals_arrived (more : ℕ) (calls : List RecvCall) :
    arrivals (.arrived more :: calls) = arrivals calls + 1 :=
  List.countP_cons_of_pos rfl

theorem arrivals_interrupted (calls : List RecvCall) :
    arrivals (.interrupted :: calls) = arrivals calls :=
  List.countP_cons_of_neg (by decide)

namespace TcpSocket

section SendAll

-- What has been taken is always the beginning of the data. It is all of the data exactly if the
-- loop has ended without an error.
theorem sendAll_go (calls : List SendCall) (data : Bytes) :
    (sendAll.go calls data).wire <+: data ∧
    ((sendAll.go calls data).result = some (.ok ()) ↔ (sendAll.go calls data).wire = data) := by
  induction calls generalizing data
  case nil => cases data <;> simp [sendAll.go]
  case cons call calls hi =>
    cases data
    case nil => simp [sendAll.go]
    case cons b data =>
      cases call
      case accepted more =>
        generalize hr : min (more + 1) (min (b :: data).length kIntMax) = r
        obtain ⟨⟨rest, hd⟩, hok⟩ := hi ((b :: data).drop r)
        simp only [sendAll.go, hr, hok]
        refine ⟨⟨rest, ?_⟩, ?_⟩
        · rw [List.append_assoc, hd, List.take_append_drop]
        · rw [← List.append_cancel_left_eq ((b :: data).take r), List.take_append_drop]
      case closed      => simp [sendAll.go, makeError]
      case interrupted => exact hi (b :: data)
      case failed e    => simp [sendAll.go, makeError]

variable {sock : TcpSocket} {calls : List SendCall} {data : Bytes}

theorem wire_sendAll : (sock.sendAll calls data).wire <+: data := by
  unfold sendAll
  split
  case isTrue  => exact List.nil_prefix
  case isFalse => exact (sendAll_go calls data).1

theorem sendAll_ok (h : (sock.sendAll calls data).result = some (.ok ())) :
    (sock.sendAll calls data).wire = data := by
  unfold sendAll at h ⊢
  split at h
  case isTrue     => simp [makeError] at h
  case isFalse hv =>
    rw [if_neg hv]
    exact (sendAll_go calls data).2.mp h

end SendAll

section RecvAll

theorem recvAll_go_zero (calls : List RecvCall) (stream : Bytes) :
    recvAll.go calls 0 stream = { result := some (.ok ()), calls, rest := stream } := by
  cases calls <;> rfl

-- The buffer is filled from the front of the stream, and with success it is full.
theorem recvAll_go (calls : List RecvCall) (n : ℕ) (stream : Bytes) :
    (recvAll.go calls n stream).buffer ++ (recvAll.go calls n stream).rest = stream ∧
    (recvAll.go calls n stream).calls <:+ calls ∧
    ((recvAll.go calls n stream).result = some (.ok ()) →
      (recvAll.go calls n stream).buffer.length = n) := by
  induction calls generalizing n stream
  case nil => cases n <;> simp [recvAll.go]
  case cons call calls hi =>
    cases n
    case zero => simp [recvAll_go_zero]
    case succ n =>
      cases call
      case interrupted =>
        obtain ⟨hs, hc, hr⟩ := hi (n + 1) stream
        exact ⟨hs, hc.trans (List.suffix_cons _ _), hr⟩
      case failed e =>
        simp only [recvAll.go]
        split <;> simp [makeError]
      case arrived more =>
        cases stream
        case nil => simp [recvAll.go, makeError]
        case cons b stream =>
          simp only [recvAll.go]
          generalize hm : min (more + 1) (min (min (n + 1) kIntMax) (b :: stream).length) = m
          obtain ⟨hs, hc, hr⟩ := hi (n + 1 - m) ((b :: stream).drop m)
          refine ⟨?_, hc.trans (List.suffix_cons _ _), ?_⟩
          · rw [List.append_assoc, hs, List.take_append_drop]
          · intro h
            rw [List.length_append, hr h, List.length_take]
            omega

-- If nothing fails and enough has arrived, the loop does what reading from a stream means.
theorem recvAll_go_eq {calls : List RecvCall} {n : ℕ} {stream : Bytes}
    (hf : ∀ call ∈ calls, !call.isFailed) (ha : stream.length < arrivals calls) :
    (n ≤ stream.length → ∃ calls', calls' <:+ calls ∧ stream.length < arrivals calls' + n ∧
      recvAll.go calls n stream = {
        result := some (.ok ())
        buffer := stream.take n
        calls  := calls'
        rest   := stream.drop n }) ∧
    (stream.length < n → (recvAll.go calls n stream).peerClosed ∧
      (recvAll.go calls n stream).buffer = stream ∧ (recvAll.go calls n stream).rest = []) := by
  induction calls generalizing n stream
  case nil => simp [arrivals] at ha
  case cons call calls hi =>
    have hf' : ∀ call ∈ calls, !call.isFailed := fun call hc => hf call (.tail _ hc)
    cases n
    case zero =>
      refine ⟨fun _ => ⟨call :: calls, List.suffix_refl _, by simpa using ha, ?_⟩, by simp⟩
      simp [recvAll_go_zero]
    case succ n =>
      cases call
      case interrupted =>
        have ha' : stream.length < arrivals calls := by
          rwa [arrivals_interrupted] at ha
        obtain ⟨hok, heof⟩ := @hi (n + 1) stream hf' ha'
        refine ⟨fun hn => ?_, heof⟩
        obtain ⟨calls', hs, hl, he⟩ := hok hn
        exact ⟨calls', hs.trans (List.suffix_cons _ _), hl, he⟩
      case failed e => simpa [RecvCall.isFailed] using hf (.failed e) (.head _)
      case arrived more =>
        have ha' : stream.length ≤ arrivals calls := by
          rw [arrivals_arrived] at ha
          omega
        cases stream
        case nil => simp [recvAll.go]
        case cons b stream =>
          simp only [recvAll.go]
          generalize hm : min (more + 1) (min (min (n + 1) kIntMax) (b :: stream).length) = m
          have hk : 0 < kIntMax := by decide
          have hm₁ : 1 ≤ m := by
            rw [List.length_cons] at hm
            omega
          have hmn : m ≤ n + 1 := by omega
          have hml : m ≤ (b :: stream).length := by omega
          have hd : ((b :: stream).drop m).length = (b :: stream).length - m := List.length_drop
          have hl : ((b :: stream).drop m).length < arrivals calls := by omega
          refine ⟨fun hn => ?_, fun hn => ?_⟩
          · have hn' : n + 1 - m ≤ ((b :: stream).drop m).length := by omega
            obtain ⟨calls', hs, hc, he⟩ := (hi hf' hl).1 hn'
            refine ⟨calls', hs.trans (List.suffix_cons _ _), by omega, ?_⟩
            rw [he]
            simp only [Receiving.mk.injEq, true_and]
            refine ⟨?_, ?_⟩
            · rw [← List.take_add]
              congr 1
              omega
            · rw [List.drop_drop]
              congr 1
              omega
          · have hn' : ((b :: stream).drop m).length < n + 1 - m := by omega
            obtain ⟨hp, hb, hr⟩ := (hi hf' hl).2 hn'
            exact ⟨hp, by rw [hb, List.take_append_drop], hr⟩

end RecvAll

section RecvFrame

variable {sock : TcpSocket} {calls calls' : List RecvCall} {n : ℕ} {stream rest : Bytes}
         {header : FrameHeader} {fr : FrameReceive}

theorem recvAll_ok (h : (sock.recvAll calls n stream).result = some (.ok ())) :
    NMC.recvAll n stream =
      (.ok (sock.recvAll calls n stream).buffer, (sock.recvAll calls n stream).rest) := by
  unfold recvAll at h ⊢
  split at h
  case isTrue     => simp [makeError] at h
  case isFalse hv =>
    rw [if_neg hv]
    obtain ⟨hs, _, hl⟩ := recvAll_go calls n stream
    nth_rewrite 1 [← hs]
    exact recvAll_append (hl h)

theorem length_recvAll (h : (sock.recvAll calls n stream).result = some (.ok ())) :
    (sock.recvAll calls n stream).buffer.length = n := by
  unfold recvAll at h ⊢
  split at h
  case isTrue     => simp [makeError] at h
  case isFalse hv =>
    rw [if_neg hv]
    exact (recvAll_go calls n stream).2.2 h

theorem recvBody_ok (h : (sock.recvBody header calls stream).result = some (.ok ())) :
    NMC.recvAll header.payloadLen.toNat stream =
      (.ok (sock.recvBody header calls stream).buffer, (sock.recvBody header calls stream).rest) ∧
    (sock.recvBody header calls stream).buffer.length = header.payloadLen.toNat := by
  rw [← recvAll_payloadLen]
  unfold recvBody at h ⊢
  split at h
  case isTrue hp =>
    simp only [if_pos hp]
    exact ⟨recvAll_ok h, length_recvAll h⟩
  case isFalse hp =>
    have hz : header.payloadLen.toNat = 0 := by simpa [UInt32.lt_iff_toNat_lt] using hp
    simp [if_neg hp, hz]

-- What a socket accepts is what is accepted from the stream.
theorem recvPayload_ok (h : sock.recvPayload header calls stream = (some fr, calls', rest))
    (ho : fr.status = .ok) : NMC.recvPayload header stream = (fr, rest) := by
  simp only [recvPayload] at h
  split at h
  case isTrue => cases h; contradiction
  case isFalse =>
    split at h
    case h_1 => simp at h
    case h_2 => cases h; contradiction
    case h_3 hr =>
      obtain ⟨he, hl⟩ := recvBody_ok hr
      simp only [NMC.recvPayload]
      rw [recvAll_payloadLen, he]
      simp only [hl, Nat.sub_self, List.replicate_zero, List.append_nil] at h
      cases h
      rfl

theorem recvFrame_ok (h : sock.recvFrame calls stream = (some fr, calls', rest))
    (ho : fr.status = .ok) : NMC.recvFrame stream = (fr, rest) := by
  simp only [recvFrame] at h
  split at h
  case isTrue => cases h; contradiction
  case isFalse =>
    split at h
    case h_1 => simp at h
    case h_2 => cases h; contradiction
    case h_3 hr =>
      rw [NMC.recvFrame, recvAll_ok hr]
      cases hd : decodeHeader (sock.recvAll calls kFrameHeaderBytes stream).buffer
      case none =>
        simp only [hd] at h
        cases h
        contradiction
      case some d =>
        obtain ⟨header, _⟩ := d
        simp only [hd] at h ⊢
        split at h
        case isTrue => cases h; contradiction
        case isFalse hm =>
          rw [if_neg hm]
          split at h
          case isTrue => cases h; contradiction
          case isFalse hl =>
            rw [if_neg hl]
            exact recvPayload_ok h ho

-- The calls that are still to come deliver all that is left of the stream, and its end.
structure Lasts (calls : List RecvCall) (stream : Bytes) : Prop where
  unfailing : ∀ call ∈ calls, !call.isFailed
  enough    : stream.length < arrivals calls

theorem recvAll_eq (hv : sock.valid) (hl : Lasts calls stream) :
    (n ≤ stream.length → ∃ calls', Lasts calls' (stream.drop n) ∧
      sock.recvAll calls n stream = {
        result := some (.ok ())
        buffer := stream.take n
        calls  := calls'
        rest   := stream.drop n }) ∧
    (stream.length < n → (sock.recvAll calls n stream).peerClosed ∧
      (sock.recvAll calls n stream).buffer = stream ∧ (sock.recvAll calls n stream).rest = []) := by
  have he : sock.recvAll calls n stream = recvAll.go calls n stream := by simp [recvAll, hv]
  rw [he]
  refine ⟨fun hn => ?_, (recvAll_go_eq hl.unfailing hl.enough).2⟩
  obtain ⟨calls', hs, ha, hg⟩ := (recvAll_go_eq hl.unfailing hl.enough).1 hn
  refine ⟨calls', ⟨fun call hc => hl.unfailing call (hs.mem hc), ?_⟩, hg⟩
  rw [List.length_drop]
  omega

theorem recvBody_eq (hv : sock.valid) (hl : Lasts calls stream) :
    (header.payloadLen.toNat ≤ stream.length →
      ∃ calls', Lasts calls' (stream.drop header.payloadLen.toNat) ∧
      sock.recvBody header calls stream = {
        result := some (.ok ())
        buffer := stream.take header.payloadLen.toNat
        calls  := calls'
        rest   := stream.drop header.payloadLen.toNat }) ∧
    (stream.length < header.payloadLen.toNat → (sock.recvBody header calls stream).peerClosed ∧
      (sock.recvBody header calls stream).buffer = stream ∧
      (sock.recvBody header calls stream).rest = []) := by
  unfold recvBody
  split
  case isTrue     => exact recvAll_eq hv hl
  case isFalse hp =>
    have hz : header.payloadLen.toNat = 0 := by simpa [UInt32.lt_iff_toNat_lt] using hp
    simp only [hz, List.take_zero, List.drop_zero]
    exact ⟨fun _ => ⟨calls, hl, rfl⟩, by simp⟩

theorem recvPayload_eq (hv : sock.valid) (hl : Lasts calls stream) :
    ∃ calls', sock.recvPayload header calls stream =
      (some (NMC.recvPayload header stream).fst, calls', (NMC.recvPayload header stream).snd) ∧
      ((NMC.recvPayload header stream).fst.status = .ok →
        Lasts calls' (NMC.recvPayload header stream).snd) := by
  by_cases hn : header.payloadLen.toNat ≤ stream.length
  case neg =>
    have hn : stream.length < header.payloadLen.toNat := by omega
    obtain ⟨hp, hb, hr⟩ := (recvBody_eq hv hl).2 hn
    obtain ⟨r, ht, hs⟩ := recvPayload_short hn
    refine ⟨(sock.recvBody header calls stream).calls, ?_, ?_⟩
    · simp only [recvPayload, if_pos hp, hb, hr, NMC.recvPayload]
      rw [recvAll_payloadLen, recvAll_short hn]
    · rw [hs, ht]
      simp
  case pos =>
    obtain ⟨calls', hl', hr⟩ := (recvBody_eq hv hl).1 hn
    refine ⟨calls', ?_⟩
    simp only [recvPayload, hr, NMC.recvPayload]
    rw [recvAll_payloadLen, NMC.recvAll, if_pos hn]
    simp only [Bool.false_eq_true, if_false, List.length_take, Nat.min_eq_left hn, Nat.sub_self,
      List.replicate_zero, List.append_nil]
    exact ⟨trivial, fun _ => hl'⟩

-- If nothing fails and enough arrives, the frame is received as from the stream, no matter into
-- which pieces the stream is cut.
theorem recvFrame_eq (hv : sock.valid) (hl : Lasts calls stream) :
    ∃ calls', sock.recvFrame calls stream =
      (some (NMC.recvFrame stream).fst, calls', (NMC.recvFrame stream).snd) ∧
      ((NMC.recvFrame stream).fst.status = .ok → Lasts calls' (NMC.recvFrame stream).snd) := by
  by_cases hn : kFrameHeaderBytes ≤ stream.length
  case neg =>
    have hn : stream.length < kFrameHeaderBytes := by omega
    obtain ⟨hp, _, hr⟩ := (recvAll_eq hv hl).2 hn
    rw [recvFrame_short hn]
    refine ⟨(sock.recvAll calls kFrameHeaderBytes stream).calls, ?_, by simp⟩
    simp only [recvFrame, if_pos hp, hr]
  case pos =>
    obtain ⟨calls', hl', hr⟩ := (recvAll_eq hv hl).1 hn
    have ha : NMC.recvAll kFrameHeaderBytes stream =
        (.ok (stream.take kFrameHeaderBytes), stream.drop kFrameHeaderBytes) := by
      rw [NMC.recvAll, if_pos hn]
    simp only [recvFrame, hr, NMC.recvFrame, ha, Bool.false_eq_true, if_false]
    cases hd : decodeHeader (stream.take kFrameHeaderBytes)
    case none        => exact ⟨calls', rfl, by simp⟩
    case some header =>
      simp only
      split
      case isTrue  => exact ⟨calls', rfl, by simp⟩
      case isFalse =>
        split
        case isTrue  => exact ⟨calls', rfl, by simp⟩
        case isFalse => exact recvPayload_eq hv hl'

end RecvFrame
end TcpSocket

-- The arguments of `send_frame`.
def Frame.parts (f : Frame) : FrameType × Bytes × UInt64 :=
  (f.type, f.payload, f.correlation)

namespace TcpSocket

section Frames

variable {sock : TcpSocket} {frames : List Frame} {stream : Bytes}

theorem sendFrame_eq (calls : List SendCall) (f : Frame) :
    sock.sendFrame calls f.type f.payload f.correlation = sock.sendAll calls f.wire := by
  have hs : NMC.sendFrame f.type f.payload f.correlation = .ok f.wire := f.send_eq
  rw [sendFrame, hs]

theorem wire_sendFrames (calls : List SendCall) (frames : List Frame) :
    (sock.sendFrames calls (frames.map Frame.parts)).wire <+: frames.flatMap Frame.wire ∧
    ((sock.sendFrames calls (frames.map Frame.parts)).result = some (.ok ()) →
      (sock.sendFrames calls (frames.map Frame.parts)).wire = frames.flatMap Frame.wire) := by
  induction frames generalizing calls
  case nil => simp [sendFrames]
  case cons f frames hi =>
    simp only [List.map_cons, Frame.parts, sendFrames, sendFrame_eq, List.flatMap_cons]
    split
    case h_1 hr =>
      rw [sendAll_ok hr, List.prefix_append_right_inj, List.append_cancel_left_eq]
      exact hi _
    case h_2 hr =>
      exact ⟨wire_sendAll.trans (List.prefix_append _ _), fun h => absurd h (hr ())⟩

-- Whatever goes wrong on the way, what is handled are frames that have been sent, in their order.
theorem handled_of_wire (n : ℕ) (calls : List RecvCall)
    (hp : stream <+: frames.flatMap Frame.wire) :
    sock.handled n calls stream <+: frames.map Frame.received := by
  induction n generalizing calls stream frames
  case zero => exact List.nil_prefix
  case succ n hi =>
    rw [handled]
    split
    case h_1 => exact List.nil_prefix
    case h_2 fr calls' rest hr =>
      split
      case isFalse => exact List.nil_prefix
      case isTrue ho =>
        have he := recvFrame_ok hr ho
        rcases Frame.recvFrame_delimits.recv_part hp with ⟨f, fs, _, rfl, hp', hw⟩ | hc | hc
        · obtain ⟨rfl, rfl⟩ := Prod.mk.inj (he.symm.trans hw)
          rw [List.map_cons, List.prefix_cons_inj]
          exact hi calls' hp'
        · simp [he, ho] at hc
        · have hd : fr = { status := .disconnect } := (congrArg Prod.fst he).symm.trans hc
          simp [hd] at ho

theorem handled_eq (hv : sock.valid) {calls : List RecvCall} {n : ℕ} (hn : frames.length < n)
    (hl : Lasts calls (frames.flatMap Frame.wire)) :
    sock.handled n calls (frames.flatMap Frame.wire) = frames.map Frame.received := by
  induction frames generalizing calls n
  case nil =>
    obtain ⟨n, rfl⟩ := Nat.exists_eq_add_one_of_ne_zero (Nat.ne_zero_of_lt hn)
    obtain ⟨calls', hr, _⟩ := recvFrame_eq hv hl
    simp only [handled, hr]
    simp [Frame.recvFrame_delimits.closed]
  case cons f frames hi =>
    obtain ⟨n, rfl⟩ := Nat.exists_eq_add_one_of_ne_zero (Nat.ne_zero_of_lt hn)
    obtain ⟨calls', hr, hl'⟩ := recvFrame_eq hv hl
    rw [List.flatMap_cons, f.recvFrame_wire] at hr hl'
    simp only [handled, List.flatMap_cons, hr, List.map_cons]
    rw [if_pos (show f.received.status = .ok from rfl), hi (by simpa using hn) (hl' rfl)]

end Frames
end TcpSocket

-- Two processes that talk over a connection. Sends are taken and bytes arrive in pieces of any
-- size, calls are interrupted, and both sides can fail. The frames that are handled are in every
-- case the first ones that have been sent, each of them once, unchanged and in their order. They
-- are all frames if nothing fails.
theorem frames_delivered (sender receiver : TcpSocket) (sends : List SendCall)
    (recvs : List RecvCall) (frames : List Frame) (n : ℕ) :
    let wire := (sender.sendFrames sends (frames.map Frame.parts)).wire
    receiver.handled n recvs wire <+: frames.map Frame.received ∧
    ((sender.sendFrames sends (frames.map Frame.parts)).result = some (.ok ()) →
      receiver.valid → (∀ call ∈ recvs, !call.isFailed) → wire.length < arrivals recvs →
      frames.length < n → receiver.handled n recvs wire = frames.map Frame.received) := by
  intro wire
  obtain ⟨hp, hw⟩ := TcpSocket.wire_sendFrames sends frames
  refine ⟨TcpSocket.handled_of_wire n recvs hp, fun hs hv hf ha hn => ?_⟩
  have he : wire = frames.flatMap Frame.wire := hw hs
  rw [he] at ha ⊢
  exact TcpSocket.handled_eq hv hn ⟨hf, ha⟩

namespace Senders

variable {ι : Type} [DecidableEq ι] {data : ι → Bytes} {s : Senders ι}

-- Some threads are through, one after the other, and the other ones have not begun.
structure Orderly (data : ι → Bytes) (s : Senders ι) (order : List ι) : Prop where
  nodup  : order.Nodup
  result : ∀ i, i ∈ order ↔ s.result i = some (.ok ())
  left   : ∀ i, s.result i = none → s.left i = data i
  wire   : s.wire = order.flatMap data

theorem go_whole {more : ℕ} {bytes : Bytes} (hn : bytes ≠ []) (hm : bytes.length ≤ more + 1)
    (hk : bytes.length ≤ kIntMax) :
    TcpSocket.sendAll.go [.accepted more] bytes =
      { result := some (.ok ()), wire := bytes, calls := [] } := by
  cases bytes
  case nil         => contradiction
  case cons b rest =>
    have hr : min (more + 1) (min (b :: rest).length kIntMax) = (b :: rest).length := by omega
    simp only [TcpSocket.sendAll.go, hr, List.drop_length, List.take_length, List.append_nil]

-- The start of a thread's last round, in which it has sent nothing.
theorem go_idle {call : SendCall} {bytes : Bytes} (hn : bytes ≠ [])
    (hc : ∀ more, call ≠ .accepted more) : (TcpSocket.sendAll.go [call] bytes).wire = [] := by
  cases bytes
  case nil => contradiction
  case cons =>
    cases call
    case accepted more => exact absurd rfl (hc more)
    all_goals rfl

theorem Orderly.call {order : List ι} (ho : Orderly data s order) {i : ι} {call : SendCall}
    (hd : data i ≠ []) (hk : (data i).length ≤ kIntMax)
    (hw : ∀ more, call = .accepted more → (data i).length ≤ more + 1) :
    ∃ order', Orderly data (s.call i call) order' := by
  unfold Senders.call
  split
  case isTrue => exact ⟨order, ho⟩
  case isFalse hr =>
    have hr : s.result i = none := by simpa using hr
    have hl := ho.left i hr
    simp only [hl]
    by_cases hc : ∃ more, call = .accepted more
    case pos =>
      obtain ⟨more, rfl⟩ := hc
      simp only [go_whole hd (hw more rfl) hk]
      have hi : i ∉ order := fun hi => by simp [(ho.result i).mp hi] at hr
      refine ⟨order ++ [i], ?_, fun j => ?_, fun j hj => ?_, ?_⟩
      · refine List.nodup_append.mpr ⟨ho.nodup, List.nodup_singleton i, fun j hj k hk he => hi ?_⟩
        exact List.mem_singleton.mp hk ▸ he ▸ hj
      · by_cases hij : j = i <;> simp [hij, ho.result]
      · have hij : j ≠ i := fun he => by simp [he] at hj
        simp only [Function.update_of_ne hij] at hj ⊢
        exact ho.left j hj
      · rw [ho.wire, List.flatMap_append, List.flatMap_singleton]
    case neg =>
      have hw := go_idle hd fun more he => hc ⟨more, he⟩
      have hn : (TcpSocket.sendAll.go [call] (data i)).result ≠ some (.ok ()) := by
        rw [ne_eq, (TcpSocket.sendAll_go _ _).2, hw]
        exact hd.symm
      refine ⟨order, ho.nodup, fun j => ?_, fun j hj => ?_, ?_⟩
      · by_cases hij : j = i
        case pos => simp [hij, ho.result, hr, hn]
        case neg => simp [hij, ho.result]
      · by_cases hij : j = i
        case pos => simp [hij, hw]
        case neg =>
          simp only [Function.update_of_ne hij] at hj ⊢
          exact ho.left j hj
      · simp [hw, ho.wire]

end Senders

theorem Frame.wire_ne_nil (f : Frame) : f.wire ≠ [] := by
  intro h
  have hl := congrArg List.length h
  simp [wire, kFrameHeaderBytes] at hl

theorem Frame.length_wire_le (f : Frame) : f.wire.length ≤ kIntMax := by
  have hf := f.fits
  have hk : kFrameHeaderBytes + kMaxFramePayload.toNat ≤ kIntMax := by decide
  rw [wire, List.length_append, length_encodeHeader]
  omega

-- Threads that send frames on one socket without any lock. If each call of `::send` takes all that
-- it is given, then the frames of the threads that succeed arrive one after the other.
theorem concurrent_frames_delivered {ι : Type} [DecidableEq ι] (frame : ι → Frame)
    (run : List (ι × SendCall))
    (hw : ∀ i more, (i, .accepted more) ∈ run → (frame i).wire.length ≤ more + 1) :
    let s := Senders.machine.after { left := fun i => (frame i).wire } run
    ∃ order : List ι, order.Nodup ∧ (∀ i, i ∈ order ↔ s.result i = some (.ok ())) ∧
      ∀ (receiver : TcpSocket) (recvs : List RecvCall) (n : ℕ),
        receiver.handled n recvs s.wire <+: order.map (Frame.received ∘ frame) ∧
        (receiver.valid → (∀ call ∈ recvs, !call.isFailed) → s.wire.length < arrivals recvs →
          order.length < n → receiver.handled n recvs s.wire =
            order.map (Frame.received ∘ frame)) := by
  intro s
  have ho : ∃ order, Senders.Orderly (fun i => (frame i).wire) s order := by
    refine Machine.invariant_of_eachStep (C := fun _ input => ∀ more, input.snd = .accepted more →
      (frame input.fst).wire.length ≤ more + 1)
      (I := fun _ s => ∃ order, Senders.Orderly (fun i => (frame i).wire) s order)
      Senders.machine _ ⟨[], by simp, by simp, by simp, rfl⟩ ?_ ?_
    · intro h input hc ⟨order, ho⟩
      exact ho.call (frame input.fst).wire_ne_nil (frame input.fst).length_wire_le hc
    · intro input past hs more hm
      refine hw input.fst more (hs.mem ?_)
      simp [← hm]
  obtain ⟨order, ho⟩ := ho
  have he : s.wire = (order.map frame).flatMap Frame.wire := by
    rw [ho.wire, List.flatMap_map]
  refine ⟨order, ho.nodup, ho.result, fun receiver recvs n => ?_⟩
  rw [he, ← List.map_map]
  refine ⟨TcpSocket.handled_of_wire n recvs (List.prefix_refl _), fun hv hf ha hn => ?_⟩
  exact TcpSocket.handled_eq hv (by simpa using hn) ⟨hf, ha⟩

-- Two frames without a payload, each of which is sent with one call.
theorem concurrent_frames_delivered_of_pings :
    let frame : Bool → Frame := fun b => ⟨.ping, if b then 1 else 2, [], by decide⟩
    let s := Senders.machine.after { left := fun i => (frame i).wire }
      [(true, .accepted 23), (true, .interrupted), (false, .accepted 23)]
    ∃ order : List Bool, order.Nodup ∧ (∀ i, i ∈ order ↔ s.result i = some (.ok ())) ∧
      ∀ (receiver : TcpSocket) (recvs : List RecvCall) (n : ℕ),
        receiver.handled n recvs s.wire <+: order.map (Frame.received ∘ frame) ∧
        (receiver.valid → (∀ call ∈ recvs, !call.isFailed) → s.wire.length < arrivals recvs →
          order.length < n → receiver.handled n recvs s.wire =
            order.map (Frame.received ∘ frame)) := by
  refine concurrent_frames_delivered _ _ fun i more hm => ?_
  have hl : i = true ∧ more = 23 ∨ i = false ∧ more = 23 := by simpa using hm
  rcases hl with ⟨rfl, rfl⟩ | ⟨rfl, rfl⟩ <;> simp [Frame.wire, kFrameHeaderBytes]

-- If one call takes a single byte, another frame can get between the bytes of the first one. Both
-- are reported as sent, and none is received.
example :
    let frame : Bool → Frame := fun b => ⟨.ping, if b then 1 else 2, [], by decide⟩
    let s := Senders.machine.after { left := fun i => (frame i).wire }
      [(false, .accepted 22), (true, .accepted 23), (false, .accepted 0)]
    s.result true = some (.ok ()) ∧ s.result false = some (.ok ()) ∧
    TcpSocket.handled {} 3 (List.replicate 60 (.arrived 0)) s.wire = [] := by
  decide +kernel

end NMC
