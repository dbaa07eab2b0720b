/-
This file states which parameters each command block can change.
-/

import NnpCamera.Parameters.Commands

namespace NnpCamera.Parameters
open Library Board

namespace Board

/-- The start row and its EEPROM byte. -/
def startRow (board : Board) : UInt8 × UInt8 := (board.startY240, board.eeprom addressStarty240)

/-- The exposure in RAM and in the EEPROM. -/
def exposure (board : Board) : UInt8 × UInt8 × UInt8 × UInt8 :=
  (board.currentCamPara.exposureh, board.currentCamPara.exposurel,
    board.eeprom packetExposureh, board.eeprom packetExposurel)

/-- The camera identity in the EEPROM. -/
def storedId (board : Board) : UInt8 := board.eeprom packetId

/-- The AOI show start and height in RAM and in the EEPROM. -/
def aoiShow (board : Board) : (UInt8 × UInt8 × UInt8) × (UInt8 × UInt8 × UInt8) :=
  ((board.currentCamPara.aoishowstartyh, board.currentCamPara.aoishowstartyl,
      board.currentCamPara.aoishowheight),
    (board.eeprom packetAoishowstartyh, board.eeprom packetAoishowstartyl,
      board.eeprom packetAoishowheight))

/-- The image request and its mode. -/
def request (board : Board) : UInt8 × UInt8 := (board.jpegDataSend, board.jpegDataPcsendFlag)

/-- The EEPROM addresses of the parameters above. -/
def namedAddresses : List UInt8 :=
  [packetId, packetExposureh, packetExposurel, packetAoishowheight, packetAoishowstartyh,
    packetAoishowstartyl, addressStarty240]

/-- The reply header is no parameter. This view hides it. -/
def configured (para : SendPacket) : SendPacket :=
  { para with event := 0, data1 := 0, data2 := 0, data3 := 0 }

/-- This view hides the EEPROM bytes of the parameters above. -/
def unnamed (eeprom : Eeprom) : Eeprom :=
  fun address => if address ∈ namedAddresses then 0 else eeprom address

/-- All other stored parameters: this view hides the parameters above. -/
def remaining (board : Board) : SendPacket × Eeprom :=
  ({ configured board.currentCamPara with
      exposureh := 0, exposurel := 0
      aoishowstartyh := 0, aoishowstartyl := 0, aoishowheight := 0 }, unnamed board.eeprom)

/-- All configuration fields in RAM. -/
def configuration (board : Board) : SendPacket × UInt8 × UInt8 × UInt8 :=
  (configured board.currentCamPara, board.startY240, board.jpegDataSend,
    board.jpegDataPcsendFlag)

theorem store_startRow (assign : SendPacket → SendPacket) (board : Board) :
    (store assign board).startRow = board.startRow := rfl

theorem save_startRow {address : UInt8} (apart : addressStarty240 ≠ address)
    (value : SendPacket → UInt8) (board : Board) :
    (save address value board).startRow = board.startRow :=
  congrArg (Prod.mk board.startY240) (Function.update_of_ne apart ..)

theorem store_storedId (assign : SendPacket → SendPacket) (board : Board) :
    (store assign board).storedId = board.storedId := rfl

theorem save_storedId {address : UInt8} (apart : packetId ≠ address)
    (value : SendPacket → UInt8) (board : Board) :
    (save address value board).storedId = board.storedId :=
  Function.update_of_ne apart ..

theorem store_request (assign : SendPacket → SendPacket) (board : Board) :
    (store assign board).request = board.request := rfl

theorem save_request (address : UInt8) (value : SendPacket → UInt8) (board : Board) :
    (save address value board).request = board.request := rfl

/-- A write to a named address does not change the other bytes. -/
theorem unnamed_update (eeprom : Eeprom) (address value : UInt8)
    (named : address ∈ namedAddresses) :
    unnamed (Function.update eeprom address value) = unnamed eeprom := by
  funext other
  by_cases same : other = address
  · simp [unnamed, same, named]
  · simp [unnamed, same]

end Board

/-- A block with one of the other events. -/
def QuietEvent (event : Event) : Prop := event = .getCamver ∨ event = .other

/-- The frame law of one command block relates the states before and after it. -/
structure FrameLaw (event : Event) (before after : Board) : Prop where
  startRow : after.startRow ≠ before.startRow → event = .setStarty240
  exposure : after.exposure ≠ before.exposure → event = .setDetectpara ∨ event = .setParaReset
  storedId : after.storedId ≠ before.storedId → event = .setCamid
  aoiShow : after.aoiShow ≠ before.aoiShow →
    event = .setAoi ∨ event = .getCaminfo ∨ event = .setParaReset
  remaining : after.remaining ≠ before.remaining → event = .setParaReset
  request : after.request ≠ before.request → event = .watchImage
  quiet : QuietEvent event →
    after.eeprom = before.eeprom ∧ after.configuration = before.configuration

/-- These four views change under few events. -/
structure KeepsOthers (program : Program Board) : Prop where
  exposure : program.Keeps Board.exposure
  storedId : program.Keeps Board.storedId
  remaining : program.Keeps Board.remaining
  request : program.Keeps Board.request

theorem KeepsOthers.append {first second : Program Board} (one : KeepsOthers first)
    (two : KeepsOthers second) : KeepsOthers (first ++ second) where
  exposure := (Program.keeps_append ..).mpr ⟨one.exposure, two.exposure⟩
  storedId := (Program.keeps_append ..).mpr ⟨one.storedId, two.storedId⟩
  remaining := (Program.keeps_append ..).mpr ⟨one.remaining, two.remaining⟩
  request := (Program.keeps_append ..).mpr ⟨one.request, two.request⟩

section Arms

attribute [local simp] storeAoiStart storeAoiHeight store save write cmosSetShutter
  netsendFifoWrite at24cxxWriteOneByte Board.startRow Board.exposure Board.storedId Board.aoiShow Board.remaining Board.request
  configured unnamed_update

variable (packet : SendPacket)

theorem watchImage_keeps :
    (watchImage packet).Keeps Board.startRow ∧ (watchImage packet).Keeps Board.exposure ∧
      (watchImage packet).Keeps Board.storedId ∧ (watchImage packet).Keeps Board.aoiShow ∧
      (watchImage packet).Keeps Board.remaining := by
  simp [watchImage]

theorem setDetectpara_keeps :
    (setDetectpara packet).Keeps Board.startRow ∧ (setDetectpara packet).Keeps Board.storedId ∧
      (setDetectpara packet).Keeps Board.aoiShow ∧ (setDetectpara packet).Keeps Board.remaining ∧
      (setDetectpara packet).Keeps Board.request := by
  simp (disch := decide) [setDetectpara, storeExposure]

theorem setCamid_keeps :
    (setCamid packet).Keeps Board.startRow ∧ (setCamid packet).Keeps Board.exposure ∧
      (setCamid packet).Keeps Board.aoiShow ∧ (setCamid packet).Keeps Board.remaining ∧
      (setCamid packet).Keeps Board.request := by
  simp (disch := decide) [setCamid]

theorem getCamver_keeps :
    getCamver.Keeps Board.startRow ∧ getCamver.Keeps Board.aoiShow ∧ KeepsOthers getCamver := by
  refine ⟨?_, ?_, ?_, ?_, ?_, ?_⟩ <;> simp [getCamver]

theorem getCamver_quiet :
    getCamver.Keeps Board.eeprom ∧ getCamver.Keeps Board.configuration := by
  simp [getCamver, Board.configuration]

theorem aoiStart_keeps :
    (aoiStart packet).Keeps Board.startRow ∧ KeepsOthers (aoiStart packet) := by
  refine ⟨?_, ?_, ?_, ?_, ?_⟩ <;> simp (disch := decide) [aoiStart]

theorem aoiHeight_keeps :
    (aoiHeight packet).Keeps Board.startRow ∧ KeepsOthers (aoiHeight packet) := by
  refine ⟨?_, ?_, ?_, ?_, ?_⟩ <;> simp (disch := decide) [aoiHeight]

theorem setAoi_keeps :
    (setAoi packet).Keeps Board.startRow ∧ KeepsOthers (setAoi packet) := by
  obtain ⟨startRow, start⟩ := aoiStart_keeps packet
  obtain ⟨heightRow, height⟩ := aoiHeight_keeps packet
  exact ⟨(Program.keeps_append ..).mpr ⟨startRow, heightRow⟩, start.append height⟩

theorem setStarty240_keeps :
    (setStarty240 packet).Keeps Board.aoiShow ∧ KeepsOthers (setStarty240 packet) := by
  refine ⟨?_, ?_, ?_, ?_, ?_⟩ <;> simp (disch := decide) [setStarty240]

/-- The arm of `GET_CAMINFO` is made of these parts. -/
theorem getCaminfo_keeps : KeepsOthers (getCaminfo packet) := by
  have head : KeepsOthers (.acts [
      store ({ · with event := 23 }),
      store ({ · with data1 := camVer }),
      fun board => store ({ · with data2 := board.startY240 }) board,
      store ({ · with data3 := 0 })]) := by
    constructor <;> simp
  have queued : KeepsOthers (.acts [netsendFifoWrite]) := by
    constructor <;> simp
  exact (((head.append (aoiStart_keeps packet).2).append (aoiHeight_keeps packet).2).append
    queued).append (setStarty240_keeps packet).2

theorem setParaReset_keeps :
    setParaReset.Keeps Board.startRow ∧ setParaReset.Keeps Board.storedId ∧
      setParaReset.Keeps Board.request := by
  have shutter (board : Board) (time : SendPacket → UInt16) :
      (cmosSetShutter time board).startRow = board.startRow ∧
        (cmosSetShutter time board).storedId = board.storedId ∧
        (cmosSetShutter time board).request = board.request := ⟨rfl, rfl, rfl⟩
  refine ⟨?_, ?_, ?_⟩ <;>
  simp (disch := decide) only [setParaReset, headDefaults, imageDefaults, detectDefaults,
    Program.keeps_acts, List.forall_mem_append, List.forall_mem_cons, List.not_mem_nil,
    store_startRow, save_startRow, store_storedId, save_storedId, store_request, save_request,
    shutter, false_implies, and_self, implies_true]

/-- `SET_STARTY240` stores a start row that is in range. -/
theorem setStarty240_startRow (board : Board) :
    ((setStarty240 packet).exec board).startRow =
      if packet.data1 ≤ 240 then (packet.data1, packet.data1) else board.startRow := by
  by_cases inRange : packet.data1 ≤ 240
  · simp [setStarty240, inRange, Program.acts]
  · simp [setStarty240, inRange]

/-- The arm of `GET_CAMINFO` ends with the arm of `SET_STARTY240`. -/
theorem getCaminfo_startRow (board : Board) :
    ((getCaminfo packet).exec board).startRow =
      if packet.data1 ≤ 240 then (packet.data1, packet.data1) else board.startRow := by
  have head : (Program.acts [
      store ({ · with event := 23 }),
      store ({ · with data1 := camVer }),
      fun board => store ({ · with data2 := board.startY240 }) board,
      store ({ · with data3 := 0 })] ++ aoiStart packet ++ aoiHeight packet ++
      .acts [netsendFifoWrite]).Keeps Board.startRow := by
    simp [(aoiStart_keeps packet).1, (aoiHeight_keeps packet).1]
  rw [getCaminfo, Program.exec_append, setStarty240_startRow, head.exec]

end Arms

/-- The switch obeys the frame law for each event that does not fall through. -/
theorem switch_frameLaw (packet : SendPacket) (board : Board) {event : Event}
    (noFallThrough : event ≠ .getCaminfo) :
    FrameLaw event board ((switch packet event).exec board) := by
  cases event with
  | watchImage =>
      obtain ⟨startRow, exposure, storedId, aoiShow, remaining⟩ := watchImage_keeps packet
      exact {
        startRow := startRow.unchanged board
        exposure := exposure.unchanged board
        storedId := storedId.unchanged board
        aoiShow := aoiShow.unchanged board
        remaining := remaining.unchanged board
        request := fun _ => rfl
        quiet := by simp [QuietEvent] }
  | setDetectpara =>
      obtain ⟨startRow, storedId, aoiShow, remaining, request⟩ := setDetectpara_keeps packet
      exact {
        startRow := startRow.unchanged board
        exposure := fun _ => .inl rfl
        storedId := storedId.unchanged board
        aoiShow := aoiShow.unchanged board
        remaining := remaining.unchanged board
        request := request.unchanged board
        quiet := by simp [QuietEvent] }
  | setCamid =>
      obtain ⟨startRow, exposure, aoiShow, remaining, request⟩ := setCamid_keeps packet
      exact {
        startRow := startRow.unchanged board
        exposure := exposure.unchanged board
        storedId := fun _ => rfl
        aoiShow := aoiShow.unchanged board
        remaining := remaining.unchanged board
        request := request.unchanged board
        quiet := by simp [QuietEvent] }
  | getCamver =>
      obtain ⟨startRow, aoiShow, others⟩ := getCamver_keeps
      obtain ⟨eeprom, configuration⟩ := getCamver_quiet
      exact {
        startRow := startRow.unchanged board
        exposure := others.exposure.unchanged board
        storedId := others.storedId.unchanged board
        aoiShow := aoiShow.unchanged board
        remaining := others.remaining.unchanged board
        request := others.request.unchanged board
        quiet := fun _ => ⟨eeprom.exec board, configuration.exec board⟩ }
  | getCaminfo => exact absurd rfl noFallThrough
  | setStarty240 =>
      obtain ⟨aoiShow, others⟩ := setStarty240_keeps packet
      exact {
        startRow := fun _ => rfl
        exposure := others.exposure.unchanged board
        storedId := others.storedId.unchanged board
        aoiShow := aoiShow.unchanged board
        remaining := others.remaining.unchanged board
        request := others.request.unchanged board
        quiet := by simp [QuietEvent] }
  | setAoi =>
      obtain ⟨startRow, others⟩ := setAoi_keeps packet
      exact {
        startRow := startRow.unchanged board
        exposure := others.exposure.unchanged board
        storedId := others.storedId.unchanged board
        aoiShow := fun _ => .inl rfl
        remaining := others.remaining.unchanged board
        request := others.request.unchanged board
        quiet := by simp [QuietEvent] }
  | setParaReset =>
      obtain ⟨startRow, storedId, request⟩ := setParaReset_keeps
      exact {
        startRow := startRow.unchanged board
        exposure := fun _ => .inr rfl
        storedId := storedId.unchanged board
        aoiShow := fun _ => .inr (.inr rfl)
        remaining := fun _ => rfl
        request := request.unchanged board
        quiet := by simp [QuietEvent] }
  | other =>
      exact {
        startRow := fun changed => absurd rfl changed
        exposure := fun changed => absurd rfl changed
        storedId := fun changed => absurd rfl changed
        aoiShow := fun changed => absurd rfl changed
        remaining := fun changed => absurd rfl changed
        request := fun changed => absurd rfl changed
        quiet := fun _ => ⟨rfl, rfl⟩ }

/-- `GET_CAMINFO` obeys the frame law exactly when the fall-through stores no new start row. -/
theorem getCaminfo_frameLaw (packet : SendPacket) (board : Board) :
    FrameLaw .getCaminfo board ((getCaminfo packet).exec board) ↔
      (packet.data1 ≤ 240 → board.startRow = (packet.data1, packet.data1)) := by
  have stored := getCaminfo_startRow packet board
  constructor
  · intro law inRange
    rw [if_pos inRange] at stored
    by_contra different
    have changed := law.startRow (stored.trans_ne (Ne.symm different))
    cases changed
  · intro same
    have kept : ((getCaminfo packet).exec board).startRow = board.startRow := by
      by_cases inRange : packet.data1 ≤ 240
      · rw [stored, if_pos inRange, same inRange]
      · rw [stored, if_neg inRange]
    have others := getCaminfo_keeps packet
    exact {
      startRow := fun changed => absurd kept changed
      exposure := others.exposure.unchanged board
      storedId := others.storedId.unchanged board
      aoiShow := fun _ => .inr (.inl rfl)
      remaining := others.remaining.unchanged board
      request := others.request.unchanged board
      quiet := by simp [QuietEvent] }

/-- A command block obeys the frame law unless it is a `GET_CAMINFO` block whose `data1` is a
valid start row that differs from the stored one. -/
theorem commandFrameLaw (block : Block) (board : Board) :
    FrameLaw (Block.event block) board ((udpDataprocess block).exec board) ↔
      ¬ (Block.event block = .getCaminfo ∧ (SendPacket.ofBlock block).data1 ≤ 240 ∧
        board.startRow ≠ ((SendPacket.ofBlock block).data1, (SendPacket.ofBlock block).data1)) := by
  unfold udpDataprocess
  by_cases fallThrough : Block.event block = .getCaminfo
  · rw [fallThrough]
    change FrameLaw .getCaminfo board ((getCaminfo (SendPacket.ofBlock block)).exec board) ↔ _
    rw [getCaminfo_frameLaw]
    simp
  · simp [fallThrough, switch_frameLaw _ _ fallThrough]

/-- This `GET_CAMINFO` block has no AOI change and asks for nothing but the reply. -/
def infoBlock : Block := fun index => if index = 3 then 23 else 0

/-- This board has the start row 120 of the first boot. -/
def startRow120 : Board where
  currentCamPara := SendPacket.ofBlock fun _ => 0
  startY240 := 120
  eeprom := fun address => if address = addressStarty240 then 120 else 0
  jpegDataSend := 0
  jpegDataPcsendFlag := 0
  shutter := 300
  queued := []

/-- A request for information moves the start row from 120 to 0 in RAM and in the EEPROM. -/
theorem commandFrameLaw_getCaminfo :
    Block.event infoBlock = .getCaminfo ∧ startRow120.startRow = (120, 120) ∧
      ((udpDataprocess infoBlock).exec startRow120).startRow = (0, 0) ∧
      ¬ FrameLaw (Block.event infoBlock) startRow120
        ((udpDataprocess infoBlock).exec startRow120) := by
  have event : Block.event infoBlock = .getCaminfo := by decide
  have moved : ((udpDataprocess infoBlock).exec startRow120).startRow = (0, 0) := by
    decide +kernel
  refine ⟨event, by decide, moved, ?_⟩
  intro law
  have changed : ((udpDataprocess infoBlock).exec startRow120).startRow ≠ startRow120.startRow := by
    rw [moved]; decide
  have wrong := law.startRow changed
  rw [event] at wrong
  cases wrong

end NnpCamera.Parameters
