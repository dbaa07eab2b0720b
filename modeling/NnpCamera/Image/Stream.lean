/-
This file follows the single buffer of a mode-0 stream through all its sends.
-/

import NnpCamera.Image.Stack
import NnpCamera.Image.Requests

namespace NnpCamera.Image
open Library Parameters

/-- The network receives the given part of the frame in 480 equal datagrams and then one trailer. -/
def Delivers (before after : Stack) (frame : Memory UInt8) (startY240 : UInt8) : Prop :=
  ∃ trailer, trailer.length = 23 ∧
    after.frames.map udpPayload = before.frames.map udpPayload ++
      (List.range udpImageDc).map (fun part =>
        frame.read (32 + 2592 * startY240.toNat + udpImageSize * part) udpImageSize) ++
      [trailer]

/-- The payload offset and the length that the sends so far have left in the buffer. -/
def partShape : Nat → Nat × Nat
  | 0 => (72, 1296)
  | 1 => (30, 1338)
  | _ + 2 => (22, 1346)

/-- The lengths of the UDP payloads that the sends so far have delivered. -/
def partLengths : Nat → List Nat
  | 0 => []
  | 1 => [1296]
  | sends + 2 => 1296 :: List.replicate sends 1346

/-- After some sends the buffer has its shape, and the network has new frames of these lengths. -/
structure Streamed (before : Stack) (sends : Nat) (sending : Pbuf × Camera Stack) : Prop where
  shape : sending.1.Shape (partShape sends).1 (partShape sends).2 (partShape sends).2
  frames : ∃ new, sending.2.network.frames = before.frames ++ new ∧
    new.map (fun frame => (udpPayload frame).length) = partLengths sends

section Sends
variable (wire : Wire)

/-- A send adds the frames that lwIP sends and returns the buffer that lwIP leaves. -/
theorem netconnSend_lwip {sentbuf moved : Pbuf} {camera : Camera Stack} {err : ErrT}
    {frames : List Frame} (sent : udpSend wire camera.network.clock sentbuf = (err, moved, frames)) :
    (netconnSend (lwipNet wire) sentbuf camera).1 = moved ∧
      (netconnSend (lwipNet wire) sentbuf camera).2.network.frames =
        camera.network.frames ++ frames := by
  simp only [netconnSend, lwipNet, sent, and_self]

/-- A frame has the three headers before its UDP payload. -/
theorem udpPayload_length {frame : Frame} {count : Nat} (length : frame.length = count + 42) :
    (udpPayload frame).length = count := by
  simp only [udpPayload, List.length_drop, length, ethHlen, ipHlen, udpHlen]
  omega

/-- The first send moves the payload, the second one fails in IP, and each later one is sent
behind a header buffer with the bytes of the second one's header in front of the old end. -/
theorem Streamed.sendPart {before : Stack} {sends : Nat} {sending : Pbuf × Camera Stack}
    (streamed : Streamed before sends sending) (imageBuf : Nat) :
    Streamed before (sends + 1) (sendPart (lwipNet wire) imageBuf sends sending) := by
  obtain ⟨new, frames, lengths⟩ := streamed.frames
  have shape := streamed.shape.copyIn 0
    (fun offset => sending.2.frame (imageBuf + sends * udpImageSize + offset)) udpImageSize
  rcases sends with _ | _ | earlier
  next =>
      obtain ⟨moved, frame, sent, movedShape, length⟩ :=
        udpSend_room wire sending.2.network.clock shape (by decide) (by decide)
      obtain ⟨buffer, network⟩ := netconnSend_lwip wire sent
      constructor
      · rw [Image.sendPart, buffer]
        exact movedShape
      · refine ⟨new ++ [frame], ?_, ?_⟩
        · rw [Image.sendPart, network, frames, List.append_assoc]
        · rw [List.map_append, lengths, List.map_singleton, udpPayload_length length]
          rfl
  next =>
      obtain ⟨moved, sent, movedShape⟩ :=
        udpSend_tight wire sending.2.network.clock shape (by decide) (by decide)
      obtain ⟨buffer, network⟩ := netconnSend_lwip wire sent
      constructor
      · rw [Image.sendPart, buffer]
        exact movedShape
      · refine ⟨new, ?_, lengths⟩
        rw [Image.sendPart, network, frames, List.append_nil]
  next =>
      simp only [partShape] at shape
      obtain ⟨frame, sent, length⟩ :=
        udpSend_chained wire sending.2.network.clock shape (by decide) (by decide) (by decide)
      obtain ⟨buffer, network⟩ := netconnSend_lwip wire sent
      constructor
      · rw [Image.sendPart, buffer]
        exact shape
      · refine ⟨new ++ [frame], ?_, ?_⟩
        · rw [Image.sendPart, network, frames, List.append_assoc]
        · rw [List.map_append, lengths, List.map_singleton, udpPayload_length length]
          simp only [partLengths, List.cons_append, List.replicate_succ']

/-- The trailer has a new buffer and arrives whole. -/
theorem sendTrailer_frames (camera : Camera Stack) :
    ∃ frame, (sendTrailer (lwipNet wire) camera).network.frames =
        camera.network.frames ++ [frame] ∧ (udpPayload frame).length = 23 := by
  have fresh : (netbufAlloc ((lwipNet wire).heap camera.network) 23).Shape 72 23 23 :=
    ⟨rfl, rfl, rfl⟩
  obtain ⟨moved, frame, sent, _, length⟩ := udpSend_room wire camera.network.clock
    (fresh.copyIn 0 (shortPacket camera) 23) (by decide) (by decide)
  refine ⟨frame, ?_, udpPayload_length length⟩
  simp only [sendTrailer, netconnSend, lwipNet] at sent ⊢
  rw [sent]

/-- The stream delivers one part, loses one, delivers 478 parts that are 50 bytes too long, and
ends with the trailer. -/
theorem sendStream_lengths (camera : Camera Stack) :
    ∃ new, (sendStream (lwipNet wire) camera).network.frames = camera.network.frames ++ new ∧
      new.map (fun frame => (udpPayload frame).length) =
        1296 :: List.replicate 478 1346 ++ [23] := by
  have start : Streamed camera.network 0
      (netbufAlloc ((lwipNet wire).heap camera.network) udpImageSize, camera) :=
    ⟨⟨rfl, rfl, rfl⟩, [], by simp, rfl⟩
  have streamed := loop_invariant (Streamed camera.network) udpImageDc start
    fun _ _ _ streamed =>
      streamed.sendPart wire (32 + camera.board.startY240.toNat * 2592)
  obtain ⟨new, frames, lengths⟩ := streamed.frames
  obtain ⟨frame, trailer, length⟩ := sendTrailer_frames wire
    (loop (sendPart (lwipNet wire) (32 + camera.board.startY240.toNat * 2592)) udpImageDc
      (netbufAlloc ((lwipNet wire).heap camera.network) udpImageSize, camera)).2
  refine ⟨new ++ [frame], ?_, ?_⟩
  · rw [sendStream, trailer, frames, List.append_assoc]
  · rw [List.map_append, lengths, List.map_singleton, length]
    rfl

end Sends

/-- A mode-0 request delivers 479 image datagrams, and all but the first are too long. -/
theorem imageStream_lengths (wire : Wire) (camera : Camera Stack)
    (pending : camera.board.jpegDataSend = 1) (mode : camera.board.jpegDataPcsendFlag = 0)
    (up : camera.udpFlag = 1) :
    ∃ new, (imgcameraTask (lwipNet wire) camera).network.frames =
        camera.network.frames ++ new ∧
      new.map (fun frame => (udpPayload frame).length) =
        1296 :: List.replicate 478 1346 ++ [23] := by
  obtain ⟨flag, ready⟩ := acknowledgeFrame_eq camera
  simp only [imgcameraTask, ready, if_pos pending]
  have linked : (selectFrame { camera with jpegDataOk := flag }).udpFlag = 1 := up
  rw [serveRequest_stream linked mode]
  exact sendStream_lengths wire (selectFrame { camera with jpegDataOk := flag })

/-- No mode-0 request delivers the 480 equal datagrams, whatever the frame, the start row, the
headers and the heap contain. -/
theorem imageStream_never (wire : Wire) (camera : Camera Stack)
    (pending : camera.board.jpegDataSend = 1) (mode : camera.board.jpegDataPcsendFlag = 0)
    (up : camera.udpFlag = 1) :
    ¬ Delivers camera.network (imgcameraTask (lwipNet wire) camera).network
      (selectFrame camera).frame camera.board.startY240 := by
  intro ⟨trailer, _, delivered⟩
  obtain ⟨new, frames, lengths⟩ := imageStream_lengths wire camera pending mode up
  rw [frames, List.map_append, List.append_assoc] at delivered
  have same := List.append_cancel_left delivered
  -- The network has one image datagram too few.
  have expected := congrArg List.length same
  have sent := congrArg List.length lengths
  simp only [List.length_map, List.length_append, List.length_range, udpImageDc,
    List.length_cons, List.length_replicate, List.length_nil] at expected sent
  omega

/-- A network with headers and heap blocks of zeros. -/
def zeroWire : Wire where
  udpHdr _ := fun _ => 0
  ipHdr _ _ := fun _ => 0
  ethHdr := fun _ => 0
  heap _ := fun _ => 0
  headerHeap _ := fun _ => 0
  ipFrag head _ := (.ok, head, [])

/-- A camera on that network with a request for mode 0 and the start row 120. -/
def streamingCamera : Camera Stack where
  board := (udpDataprocess (watchBlock 0)).exec zeroBoot
  jpegDataOk := 0
  currentcatch := 0
  getCatchPos := 0
  imgbuf2592x480x32 := fun _ _ => 0
  udpFlag := 1
  ovFrame := 0
  udpShort := fun _ => 0
  network := ⟨[], 0⟩
  handed := []

theorem streamingCamera_requested :
    streamingCamera.board.jpegDataSend = 1 ∧ streamingCamera.board.jpegDataPcsendFlag = 0 ∧
      streamingCamera.board.startY240 = 120 := by
  decide +kernel

theorem imageStream_never_zero :
    ¬ Delivers streamingCamera.network (imgcameraTask (lwipNet zeroWire) streamingCamera).network
      (selectFrame streamingCamera).frame streamingCamera.board.startY240 := by
  obtain ⟨pending, mode, _⟩ := streamingCamera_requested
  exact imageStream_never zeroWire streamingCamera pending mode rfl

/-- With the start row 120 the camera delivers 479 image datagrams in place of 480. The second
one that arrives has 1346 bytes in place of 1296. -/
theorem imageStream_short :
    ∃ frames, (imgcameraTask (lwipNet zeroWire) streamingCamera).network.frames = frames ∧
      frames.length = 480 ∧ (frames.map fun frame => (udpPayload frame).length)[1]? = some 1346 ∧
      ∀ parts : List (List UInt8), parts.length = 480 → ∀ trailer,
        frames.map udpPayload ≠ parts ++ [trailer] := by
  obtain ⟨pending, mode, _⟩ := streamingCamera_requested
  obtain ⟨new, frames, lengths⟩ := imageStream_lengths zeroWire streamingCamera pending mode rfl
  have count : new.length = 480 := by
    have sent := congrArg List.length lengths
    simpa only [List.length_map, List.length_cons, List.length_append, List.length_replicate,
      List.length_nil] using sent
  refine ⟨new, frames, count, by rw [lengths]; rfl, ?_⟩
  intro parts size trailer same
  have total := congrArg List.length same
  simp only [List.length_map, List.length_append, List.length_singleton, count, size] at total
  omega

end NnpCamera.Image
