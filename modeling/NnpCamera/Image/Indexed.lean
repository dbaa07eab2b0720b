/-
This file decodes the indexed image streams of the modes 1 and 3.
-/

import NnpCamera.Library.Blocks
import NnpCamera.Image.Requests

namespace NnpCamera.Image
open Library Parameters

/-- The image starts after the 32 bytes at the head of a frame. -/
def imageBytes (frame : Memory UInt8) : Memory UInt8 := fun position => frame (32 + position)

/-- An image datagram has a 16-bit index, a 16-bit camera identity and half a row. -/
def imageDatagram (id : UInt8) (frame : Memory UInt8) (index : Nat) : List UInt8 :=
  [.ofNat (index >>> 8), .ofNat index, (id.toUInt16 >>> 8).toUInt8, id] ++
    (imageBytes frame).read (udpImageSize * index) udpImageSize

/-- The receiver reads the index with its high byte first. -/
def packetIndex : List UInt8 → Nat
  | high :: low :: _ => 256 * high.toNat + low.toNat
  | _ => 0

/-- The receiver places the bytes after the header at the offset of the index. -/
def receive (image : PartialImage UInt8) (datagram : List UInt8) : PartialImage UInt8 :=
  if datagram.length = udpImageSize + 4 then
    image.place (udpImageSize * packetIndex datagram) (datagram.drop 4)
  else image

/-- A send adds image datagrams and one trailer that decode to exactly the given rows. -/
structure Transmits (before after : List (List UInt8)) (frame : Memory UInt8)
    (firstRow rows : Nat) : Prop where
  handed : ∃ images trailer, after = before ++ images ++ [trailer] ∧ trailer.length = 23 ∧
    (∀ datagram ∈ images, datagram.length = udpImageSize + 4) ∧
    images.map packetIndex = List.range' (2 * firstRow) (2 * rows) ∧
    images.foldl receive .empty =
      PartialImage.empty.fill (imageBytes frame) (2592 * firstRow) (2592 * (firstRow + rows))

section Datagrams
variable (id : UInt8) (frame : Memory UInt8)

theorem imageDatagram_length (index : Nat) :
    (imageDatagram id frame index).length = udpImageSize + 4 := by
  simp only [imageDatagram, List.length_append, Memory.read_length, List.length_cons,
    List.length_nil]
  omega

/-- The four header bytes precede the image bytes. -/
theorem imageDatagram_drop (index : Nat) :
    (imageDatagram id frame index).drop 4 =
      (imageBytes frame).read (udpImageSize * index) udpImageSize := by
  simp only [imageDatagram, List.cons_append, List.nil_append, List.drop_succ_cons, List.drop_zero]

/-- The two index bytes give the index back. -/
theorem imageDatagram_index (index : Nat) (small : index < 65536) :
    packetIndex (imageDatagram id frame index) = index := by
  simp only [packetIndex, imageDatagram, List.cons_append, UInt8.toNat_ofNat', Nat.shiftRight_eq_div_pow]
  omega

/-- The receiver places half a row of the image. -/
theorem receive_imageDatagram (image : PartialImage UInt8) (index : Nat) (small : index < 65536) :
    receive image (imageDatagram id frame index) =
      image.place (udpImageSize * index)
        ((imageBytes frame).read (udpImageSize * index) udpImageSize) := by
  rw [receive, if_pos (imageDatagram_length id frame index), imageDatagram_index id frame index small,
    imageDatagram_drop]

/-- Consecutive datagrams fill exactly their half rows. -/
theorem receive_datagrams (first count : Nat) (small : first + count ≤ 65536) :
    ((List.range' first count).map (imageDatagram id frame)).foldl receive .empty =
      PartialImage.empty.fill (imageBytes frame) (udpImageSize * first)
        (udpImageSize * (first + count)) := by
  rw [List.foldl_map, ← PartialImage.place_blocks]
  apply List.foldl_ext
  intro image index inside
  have high := (List.mem_range'_1.mp inside).2
  exact receive_imageDatagram id frame image index (by omega)

end Datagrams

/-- A buffer that is filled from its fifth byte on and then gets four header bytes. -/
theorem Pbuf.bytes_packet (buffer : Pbuf) (source : Memory UInt8) (count : Nat)
    (length : buffer.len = 4 + count) (byte0 byte1 byte2 byte3 : UInt8) :
    (((((buffer.copyIn 4 source count).write 0 byte0).write 1 byte1).write 2 byte2).write 3
      byte3).bytes = [byte0, byte1, byte2, byte3] ++ source.read 0 count := by
  simp only [Pbuf.bytes, Pbuf.write, Pbuf.copyIn, length, Memory.read_add]
  congr 1
  · simp [Memory.read, List.range_succ]
  · rw [Memory.read_update _ _ _ _ _ (by omega), Memory.read_update _ _ _ _ _ (by omega),
      Memory.read_update _ _ _ _ _ (by omega), Memory.read_update _ _ _ _ _ (by omega)]
    simpa using Memory.read_copy buffer.memory (buffer.payload + 4) count source 0

section Sends
variable {Network : Type} (net : Net Network)

/-- Each pass of the loop hands over one image datagram. -/
theorem sendPacket_handed (index : Nat) (camera : Camera Network) :
    (sendPacket net index camera).handed =
      camera.handed ++ [imageDatagram camera.board.currentCamPara.id camera.frame index] := by
  have bytes := Pbuf.bytes_packet (netbufAlloc (net.heap camera.network) (udpImageSize + 4))
    (fun offset => camera.frame (32 + index * udpImageSize + offset)) udpImageSize
    (Nat.add_comm _ _) (.ofNat (index >>> 8)) (.ofNat index)
    (camera.board.currentCamPara.id.toUInt16 >>> 8).toUInt8 camera.board.currentCamPara.id
  have image : Memory.read (fun offset => camera.frame (32 + index * udpImageSize + offset)) 0
      udpImageSize = (imageBytes camera.frame).read (udpImageSize * index) udpImageSize := by
    apply Memory.read_congr
    intro offset _
    have same : 32 + index * udpImageSize + (0 + offset) =
        32 + (udpImageSize * index + offset) := by
      rw [Nat.mul_comm index]
      omega
    simp only [imageBytes, same]
  rw [image] at bytes
  simp only [sendPacket, netconnSend]
  rw [bytes]
  rfl

/-- The loop hands over consecutive image datagrams and keeps what they are made of. -/
theorem sendPackets_sent (first count : Nat) (camera : Camera Network) :
    let sent := loop (fun index => sendPacket net (first + index)) count camera
    sent.board = camera.board ∧ sent.frame = camera.frame ∧
      sent.handed = camera.handed ++ (List.range' first count).map
        (imageDatagram camera.board.currentCamPara.id camera.frame) := by
  refine loop_invariant (fun index (sent : Camera Network) =>
    sent.board = camera.board ∧ sent.frame = camera.frame ∧
      sent.handed = camera.handed ++ (List.range' first index).map
        (imageDatagram camera.board.currentCamPara.id camera.frame)) count ?_ ?_
  · exact ⟨rfl, rfl, by simp⟩
  · intro index sent _ ⟨board, frame, handed⟩
    refine ⟨board, frame, ?_⟩
    rw [sendPacket_handed, board, frame, handed, List.range'_1_concat, List.map_append,
      List.append_assoc]
    rfl

/-- The trailer has 23 bytes. -/
theorem sendTrailer_handed (camera : Camera Network) :
    ∃ trailer, trailer.length = 23 ∧
      (sendTrailer net camera).handed = camera.handed ++ [trailer] :=
  ⟨_, Memory.read_length .., rfl⟩

/-- A stream that starts at a row and has two packets for each row decodes to these rows. -/
theorem sendIndexed_transmits (firstRow rows : Nat) (small : firstRow + rows ≤ 32768)
    (camera : Camera Network) :
    Transmits camera.handed (sendIndexed net (2 * firstRow) (2 * rows) camera).handed
      camera.frame firstRow rows where
  handed := by
    obtain ⟨trailer, length, handed⟩ := sendTrailer_handed net
      (loop (fun index => sendPacket net (2 * firstRow + index)) (2 * rows) camera)
    rw [(sendPackets_sent net (2 * firstRow) (2 * rows) camera).2.2] at handed
    refine ⟨_, trailer, handed, length, ?_, ?_, ?_⟩
    · intro datagram inside
      obtain ⟨index, _, rfl⟩ := List.mem_map.mp inside
      exact imageDatagram_length _ _ index
    · rw [List.map_map]
      calc
        _ = (List.range' (2 * firstRow) (2 * rows)).map id := by
          apply List.map_congr_left
          intro index inside
          have high := (List.mem_range'_1.mp inside).2
          exact imageDatagram_index _ _ index (by omega)
        _ = _ := List.map_id _
    · rw [receive_datagrams _ _ _ _ (by omega)]
      congr 1
      · simp only [udpImageSize]; omega
      · simp only [udpImageSize]; omega

end Sends

/-- While the link is up, mode 1 transmits the whole selected image, and mode 3 transmits the AOI
rows of it when the AOI window lies inside the image. -/
theorem indexedStream_decodes {Network : Type} (net : Net Network) (camera : Camera Network)
    (pending : camera.board.jpegDataSend = 1) (up : camera.udpFlag = 1) :
    (camera.board.jpegDataPcsendFlag = 1 →
      Transmits camera.handed (imgcameraTask net camera).handed (selectFrame camera).frame
        0 480) ∧
    (camera.board.jpegDataPcsendFlag = 3 → Inside camera.board.currentCamPara.aoiWindow →
      Transmits camera.handed (imgcameraTask net camera).handed (selectFrame camera).frame
        camera.board.currentCamPara.aoiShowStartY.toNat
        camera.board.currentCamPara.aoishowheight.toNat) := by
  obtain ⟨flag, ready⟩ := acknowledgeFrame_eq camera
  simp only [imgcameraTask, ready, if_pos pending]
  have linked : (selectFrame { camera with jpegDataOk := flag }).udpFlag = 1 := up
  constructor
  · intro mode
    rw [serveRequest_image linked mode]
    exact sendIndexed_transmits net 0 480 (by decide) (selectFrame { camera with jpegDataOk := flag })
  · intro mode inside
    have rows : camera.board.currentCamPara.aoiShowStartY.toNat +
        camera.board.currentCamPara.aoishowheight.toNat ≤ 480 := inside
    have sent := sendIndexed_transmits net camera.board.currentCamPara.aoiShowStartY.toNat
      camera.board.currentCamPara.aoishowheight.toNat (by omega)
      (selectFrame { camera with jpegDataOk := flag })
    rw [← inside.packets.1, ← inside.packets.2] at sent
    rw [serveRequest_aoi linked mode]
    exact sent

/-- The camera that has received a request for mode 3 with the default AOI of 32 rows. -/
theorem indexedStream_decodes_default :
    Transmits [] (imgcameraTask refusingNet (requestedCamera 3)).handed
      (selectFrame (requestedCamera 3)).frame 10 32 := by
  have pending : (requestedCamera 3).board.jpegDataSend = 1 := by decide +kernel
  have mode : (requestedCamera 3).board.jpegDataPcsendFlag = 3 := by decide +kernel
  have inside : Inside (requestedCamera 3).board.currentCamPara.aoiWindow := by decide +kernel
  have start : (requestedCamera 3).board.currentCamPara.aoiShowStartY.toNat = 10 := by
    decide +kernel
  have height : (requestedCamera 3).board.currentCamPara.aoishowheight.toNat = 32 := by
    decide +kernel
  have sent := (indexedStream_decodes refusingNet (requestedCamera 3) pending rfl).2 mode inside
  rw [start, height] at sent
  exact sent

end NnpCamera.Image
