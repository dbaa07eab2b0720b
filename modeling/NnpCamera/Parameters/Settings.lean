/-
This file shows that the EEPROM always holds the settings in force.
-/

import NnpCamera.Library.Memory
import NnpCamera.Parameters.AoiWindow
import Mathlib.Data.List.Induction

namespace NnpCamera.Parameters
open Library Board

/-- The load branch fills the first entries of a table and leaves the others. -/
def loadTable (eeprom : Eeprom) (address : Fin 10 → UInt8) (old : Fin 10 → UInt16) :
    Fin 10 → UInt16 :=
  fun entry => if entry ∈ clothEntries then at24cxxReadTwoBytes eeprom (address entry) else old entry

/-- The load branch assigns these fields besides the identity and the run-time status. -/
def reload (eeprom : Eeprom) (para : SendPacket) : SendPacket :=
  { para with
    head1 := 0xAA
    head2 := 0xAC
    senstive1h := at24cxxReadOneByte eeprom packetSenstive1h
    senstive1l := at24cxxReadOneByte eeprom packetSenstive1l
    senstive2h := at24cxxReadOneByte eeprom packetSenstive2h
    senstive2l := at24cxxReadOneByte eeprom packetSenstive2l
    gainh := 0
    gainl := 9
    exposureh := at24cxxReadOneByte eeprom packetExposureh
    exposurel := at24cxxReadOneByte eeprom packetExposurel
    mode := at24cxxReadOneByte eeprom packetMode
    alg1 := at24cxxReadOneByte eeprom packetAlg1
    alg2 := at24cxxReadOneByte eeprom packetAlg2
    autoexposure := 1
    autoexposurevalue := 128
    aoiauto := 0
    aoishowheight := at24cxxReadOneByte eeprom packetAoishowheight
    aoistartyh := at24cxxReadOneByte eeprom packetAoistartyh
    aoistartyl := at24cxxReadOneByte eeprom packetAoistartyl
    aoishowstartyh := at24cxxReadOneByte eeprom packetAoishowstartyh
    aoishowstartyl := at24cxxReadOneByte eeprom packetAoishowstartyl
    aoishowstartxh := at24cxxReadOneByte eeprom packetAoishowstartxh
    aoishowstartxl := at24cxxReadOneByte eeprom packetAoishowstartxl
    aoishowendxh := at24cxxReadOneByte eeprom packetAoishowendxh
    openclothstart := loadTable eeprom clothStartAddress para.openclothstart
    openclothend := loadTable eeprom clothEndAddress para.openclothend
    aoishowendxl := at24cxxReadOneByte eeprom packetAoishowendxl
    tail1 := 0xFC
    tail2 := 0xFF }

/-- The settings in force. This view hides the identity, the run-time status and all that the
load branch does not assign. -/
def SendPacket.settings (para : SendPacket) : SendPacket :=
  { para with
    id := 0, event := 0, status := 0, openclothnum := 0, openclothid := 0, changeid := 0
    data1 := 0, data2 := 0, data3 := 0
    openclothstart := fun entry => if entry ∈ clothEntries then para.openclothstart entry else 0
    openclothend := fun entry => if entry ∈ clothEntries then para.openclothend entry else 0 }

/-- What the load branch assigns does not depend on the earlier contents of `CurrentCamPara`. -/
theorem reload_settings (eeprom : Eeprom) (first second : SendPacket) :
    (reload eeprom first).settings = (reload eeprom second).settings := by
  have table (address : Fin 10 → UInt8) (old : Fin 10 → UInt16) :
      (fun entry => if entry ∈ clothEntries then loadTable eeprom address old entry else 0) =
        fun entry => if entry ∈ clothEntries then at24cxxReadTwoBytes eeprom (address entry)
          else 0 := by
    funext entry
    by_cases loaded : entry ∈ clothEntries
    · simp only [loadTable, if_pos loaded]
    · simp only [if_neg loaded]
  simp only [reload, SendPacket.settings, table]

/-- The last test of the load branch limits a stored start row. -/
def limitStartY240 : Program Board :=
  .only (fun board => board.startY240 > 240) (.acts [
    fun board => { board with startY240 := 240 },
    fun board => write addressStarty240 board.startY240 board])

/-- The load branch loads all parameters and then limits the start row. -/
theorem loadBranch_exec (board : Board) :
    loadBranch.exec board = limitStartY240.exec { board with
      currentCamPara := { reload board.eeprom board.currentCamPara with
        id := at24cxxReadOneByte board.eeprom packetId
        status := at24cxxReadOneByte board.eeprom packetStatus }
      startY240 := at24cxxReadOneByte board.eeprom addressStarty240 } := by
  rw [loadBranch, Program.exec_append, ← limitStartY240]
  congr 1
  have starts : _ = loadTable board.eeprom clothStartAddress board.currentCamPara.openclothstart :=
    foldl_update clothEntries
      (fun entry => at24cxxReadTwoBytes board.eeprom (clothStartAddress entry)) _
  have ends : _ = loadTable board.eeprom clothEndAddress board.currentCamPara.openclothend :=
    foldl_update clothEntries
      (fun entry => at24cxxReadTwoBytes board.eeprom (clothEndAddress entry)) _
  simp only [reload]
  rw [← starts, ← ends]
  rfl

/-- A write outside a table does not change what the load branch reads into it. -/
theorem loadTable_update (eeprom : Eeprom) (place value : UInt8) (address : Fin 10 → UInt8)
    (old : Fin 10 → UInt16)
    (outside : ∀ entry, address entry ≠ place ∧ address entry + 1 ≠ place) :
    loadTable (Function.update eeprom place value) address old = loadTable eeprom address old := by
  funext entry
  obtain ⟨low, high⟩ := outside entry
  simp only [loadTable, at24cxxReadTwoBytes, at24cxxReadOneByte, Function.update_of_ne low,
    Function.update_of_ne high]

/-- A second load of the same table changes nothing. -/
theorem loadTable_idem (eeprom : Eeprom) (address : Fin 10 → UInt8) (old : Fin 10 → UInt16) :
    loadTable eeprom address (loadTable eeprom address old) = loadTable eeprom address old := by
  funext entry
  by_cases loaded : entry ∈ clothEntries
  · simp only [loadTable, if_pos loaded]
  · simp only [loadTable, if_neg loaded]

/-- Loading the EEPROM again would leave each setting as it is. -/
structure Mirrored (board : Board) : Prop where
  settings : reload board.eeprom board.currentCamPara = board.currentCamPara
  startRow : at24cxxReadOneByte board.eeprom addressStarty240 = board.startY240
  rowInside : board.startY240 ≤ 240

section Arms
variable (packet : SendPacket)

attribute [local simp] store save write cmosSetShutter netsendFifoWrite at24cxxWriteOneByte
  at24cxxReadOneByte Program.acts

/-- The last test of the load branch mirrors a limited start row. -/
theorem limitStartY240_mirrored {board : Board}
    (settings : reload board.eeprom board.currentCamPara = board.currentCamPara)
    (startRow : at24cxxReadOneByte board.eeprom addressStarty240 = board.startY240) :
    Mirrored (limitStartY240.exec board) := by
  rw [limitStartY240, Program.exec_only]
  split
  next high =>
    have same : reload (Function.update board.eeprom addressStarty240 240) board.currentCamPara =
        reload board.eeprom board.currentCamPara := by
      simp (disch := decide) [reload, loadTable_update]
    constructor
    · exact same.trans settings
    · simp
    · simp
  next low =>
    have inside : board.startY240 ≤ 240 := by simpa using low
    exact ⟨settings, startRow, inside⟩

/-- The load branch mirrors the EEPROM whatever memory held before. -/
theorem loadBranch_mirrored (board : Board) : Mirrored (loadBranch.exec board) := by
  rw [loadBranch_exec]
  apply limitStartY240_mirrored
  · simp only [reload, loadTable_idem]
  · rfl

/-- The first-boot branch clears one entry of both tables. -/
def clearEntry (entry : Fin 10) : List (Board → Board) := [
  store fun para => { para with openclothstart := Function.update para.openclothstart entry 0 },
  save (clothStartAddress entry) fun para => (para.openclothstart entry).toUInt8,
  save (clothStartAddress entry + 1) fun para => (para.openclothstart entry >>> 8).toUInt8,
  store fun para => { para with openclothend := Function.update para.openclothend entry 0 },
  save (clothEndAddress entry) fun para => (para.openclothend entry).toUInt8,
  save (clothEndAddress entry + 1) fun para => (para.openclothend entry >>> 8).toUInt8]

/-- The EEPROM bytes of one entry of both tables. -/
def clothBytes (entry : Fin 10) : List UInt8 :=
  [clothStartAddress entry, clothStartAddress entry + 1, clothEndAddress entry,
    clothEndAddress entry + 1]

/-- The loop of the first-boot branch clears the entries in RAM and in the EEPROM. -/
theorem clearEntries_exec (entries : List (Fin 10)) (board : Board) :
    (Program.acts (entries.flatMap clearEntry)).exec board = { board with
      currentCamPara := { board.currentCamPara with
        openclothstart := fun entry =>
          if entry ∈ entries then 0 else board.currentCamPara.openclothstart entry
        openclothend := fun entry =>
          if entry ∈ entries then 0 else board.currentCamPara.openclothend entry }
      eeprom := fun address =>
        if address ∈ entries.flatMap clothBytes then 0 else board.eeprom address } := by
  rw [← foldl_update entries fun _ => 0, ← foldl_update entries fun _ => 0,
    ← foldl_update (entries.flatMap clothBytes) fun _ => 0]
  induction entries generalizing board with
  | nil => rfl
  | cons entry rest ih =>
      rw [List.flatMap_cons, Program.acts_append, Program.exec_append, ih, List.flatMap_cons,
        List.foldl_append]
      simp [clearEntry, clothBytes]

/-- The defaults mirror each setting outside the tables. -/
theorem defaults_reload (board : Board) :
    let after := (Program.acts (headDefaults ++ [
      store ({ · with id := 1 }),
      save packetId (·.id)] ++ imageDefaults ++ detectDefaults)).exec board
    reload after.eeprom after.currentCamPara = { after.currentCamPara with
      openclothstart := loadTable after.eeprom clothStartAddress after.currentCamPara.openclothstart
      openclothend := loadTable after.eeprom clothEndAddress after.currentCamPara.openclothend } := by
  simp only [headDefaults, imageDefaults, detectDefaults,
      List.cons_append, List.nil_append, Program.acts, Program.exec_act, Program.exec_done, store,
      save, at24cxxWriteOneByte, reload]
  rfl

/-- The loop of the first-boot branch mirrors the tables. -/
theorem loadTable_clear (eeprom : Eeprom) (address : Fin 10 → UInt8) (old : Fin 10 → UInt16)
    (low : ∀ entry ∈ clothEntries, address entry ∈ clothEntries.flatMap clothBytes)
    (high : ∀ entry ∈ clothEntries, address entry + 1 ∈ clothEntries.flatMap clothBytes) :
    loadTable (fun place => if place ∈ clothEntries.flatMap clothBytes then 0 else eeprom place)
        address (fun entry => if entry ∈ clothEntries then 0 else old entry) =
      fun entry => if entry ∈ clothEntries then 0 else old entry := by
  funext entry
  by_cases loaded : entry ∈ clothEntries
  · simp only [loadTable, if_pos loaded, at24cxxReadTwoBytes, at24cxxReadOneByte,
      if_pos (low entry loaded), if_pos (high entry loaded)]
    rfl
  · simp only [loadTable, if_neg loaded]

/-- The first-boot branch assigns the defaults, clears the tables and sets the marker. -/
theorem firstBootBranch_parts : firstBootBranch = .acts (headDefaults ++ [
    store ({ · with id := 1 }),
    save packetId (·.id)] ++ imageDefaults ++ detectDefaults) ++
    (.acts (clothEntries.flatMap clearEntry) ++ .acts [
      fun board => { board with startY240 := 120 },
      fun board => write addressStarty240 board.startY240 board,
      write addressMarker 0x25]) := by
  rw [← Program.acts_append, ← Program.acts_append]
  rfl

/-- The first-boot branch writes each setting that it assigns to the EEPROM. -/
theorem firstBootBranch_mirrored (board : Board) : Mirrored (firstBootBranch.exec board) := by
  rw [firstBootBranch_parts, Program.exec_append, Program.exec_append]
  have fields := defaults_reload board
  generalize (Program.acts (_ ++ detectDefaults)).exec board = after at fields ⊢
  rw [clearEntries_exec]
  have starts := loadTable_clear after.eeprom clothStartAddress
    after.currentCamPara.openclothstart (by decide) (by decide)
  have ends := loadTable_clear after.eeprom clothEndAddress
    after.currentCamPara.openclothend (by decide) (by decide)
  constructor
  · have cleared : reload (fun address =>
          if address ∈ clothEntries.flatMap clothBytes then 0 else after.eeprom address)
        { after.currentCamPara with
          openclothstart := fun entry =>
            if entry ∈ clothEntries then 0 else after.currentCamPara.openclothstart entry
          openclothend := fun entry =>
            if entry ∈ clothEntries then 0 else after.currentCamPara.openclothend entry } =
        { reload after.eeprom after.currentCamPara with
          openclothstart := fun entry =>
            if entry ∈ clothEntries then 0 else after.currentCamPara.openclothstart entry
          openclothend := fun entry =>
            if entry ∈ clothEntries then 0 else after.currentCamPara.openclothend entry } := by
      simp only [reload, starts, ends]
      rfl
    rw [fields] at cleared
    refine Eq.trans ?_ cleared
    simp (disch := decide) only [Program.acts, Program.exec_act, Program.exec_done, write,
      at24cxxWriteOneByte, reload, loadTable_update]
    rfl
  · rfl
  · change (120 : UInt8) ≤ 240
    decide

/-- A step that changes no parameter and no EEPROM byte keeps the settings mirrored. -/
theorem Mirrored.transfer {board after : Board} (mirrored : Mirrored board)
    (para : after.currentCamPara = board.currentCamPara)
    (startRow : after.startY240 = board.startY240) (eeprom : after.eeprom = board.eeprom) :
    Mirrored after := by
  constructor
  · rw [para, eeprom]
    exact mirrored.settings
  · rw [startRow, eeprom]
    exact mirrored.startRow
  · rw [startRow]
    exact mirrored.rowInside

/-- An assignment keeps the settings mirrored when a reload after its writes makes it too. -/
theorem Mirrored.assigned {assign : SendPacket → SendPacket} {writes : Eeprom → Eeprom}
    (reloads : ∀ eeprom para, reload (writes eeprom) (assign para) = assign (reload eeprom para))
    (row : ∀ eeprom, at24cxxReadOneByte (writes eeprom) addressStarty240 =
      at24cxxReadOneByte eeprom addressStarty240)
    {board after : Board} (mirrored : Mirrored board)
    (para : after.currentCamPara = assign board.currentCamPara)
    (startRow : after.startY240 = board.startY240)
    (eeprom : after.eeprom = writes board.eeprom) : Mirrored after := by
  constructor
  · rw [para, eeprom, reloads, mirrored.settings]
  · rw [startRow, eeprom, row]
    exact mirrored.startRow
  · rw [startRow]
    exact mirrored.rowInside

theorem watchImage_mirrored : (watchImage packet).Preserves Mirrored := by
  intro board mirrored
  have kept : (watchImage packet).Keeps fun board =>
      (board.currentCamPara, board.startY240, board.eeprom) := by
    simp [watchImage, -Program.acts]
  have same := kept.exec board
  simp only [Prod.mk.injEq] at same
  exact mirrored.transfer same.1 same.2.1 same.2.2

theorem storeExposure_mirrored : (storeExposure packet).Preserves Mirrored := by
  apply Program.Preserves.only
  intro board _ mirrored
  have reloads (eeprom : Eeprom) (para : SendPacket) :
      reload (Function.update (Function.update eeprom packetExposureh packet.exposureh)
          (packetExposureh + 1) packet.exposurel)
        { para with exposureh := packet.exposureh, exposurel := packet.exposurel } =
        { reload eeprom para with
          exposureh := packet.exposureh, exposurel := packet.exposurel } := by
    simp (disch := decide) [reload, loadTable_update]
  exact mirrored.assigned reloads (fun _ => rfl) rfl rfl rfl

theorem setDetectpara_mirrored : (setDetectpara packet).Preserves Mirrored := by
  intro board mirrored
  simp only [setDetectpara, Program.exec, ite_self]
  exact storeExposure_mirrored packet board mirrored

theorem setCamid_mirrored : (setCamid packet).Preserves Mirrored := by
  apply Program.Preserves.only
  intro board _ mirrored
  have reloads (eeprom : Eeprom) (para : SendPacket) :
      reload (Function.update eeprom packetId packet.changeid) para = reload eeprom para := by
    simp (disch := decide) [reload, loadTable_update]
  exact mirrored.assigned reloads (fun _ => rfl) rfl rfl rfl

/-- A store to fields that are no settings keeps the settings mirrored. -/
theorem Mirrored.storeReply {assign : SendPacket → SendPacket}
    (commutes : ∀ eeprom para, reload eeprom (assign para) = assign (reload eeprom para))
    {board : Board} (mirrored : Mirrored board) : Mirrored (store assign board) :=
  mirrored.assigned commutes (fun _ => rfl) rfl rfl rfl

theorem getCamver_mirrored : getCamver.Preserves Mirrored := by
  intro board mirrored
  have reply : Mirrored (store ({ · with data1 := camVer })
      (store ({ · with event := 22 }) board)) :=
    (mirrored.storeReply fun _ _ => rfl).storeReply fun _ _ => rfl
  exact reply.transfer rfl rfl rfl

theorem aoiStart_mirrored : (aoiStart packet).Preserves Mirrored := by
  apply Program.Preserves.only
  intro board _ mirrored
  have reloads (eeprom : Eeprom) (para : SendPacket) :
      reload (Function.update (Function.update eeprom packetAoishowstartyh packet.aoishowstartyh)
          packetAoishowstartyl packet.aoishowstartyl)
        { para with
          aoishowstartyh := packet.aoishowstartyh, aoishowstartyl := packet.aoishowstartyl } =
        { reload eeprom para with
          aoishowstartyh := packet.aoishowstartyh, aoishowstartyl := packet.aoishowstartyl } := by
    simp (disch := decide) [reload, loadTable_update]
  exact mirrored.assigned reloads (fun _ => rfl) rfl rfl rfl

theorem aoiHeight_mirrored : (aoiHeight packet).Preserves Mirrored := by
  apply Program.Preserves.only
  intro board _ mirrored
  have reloads (eeprom : Eeprom) (para : SendPacket) :
      reload (Function.update eeprom packetAoishowheight packet.aoishowheight)
        { para with aoishowheight := packet.aoishowheight } =
        { reload eeprom para with aoishowheight := packet.aoishowheight } := by
    simp (disch := decide) [reload, loadTable_update]
  exact mirrored.assigned reloads (fun _ => rfl) rfl rfl rfl

theorem setAoi_mirrored : (setAoi packet).Preserves Mirrored :=
  (aoiStart_mirrored packet).append (aoiHeight_mirrored packet)

theorem setStarty240_mirrored : (setStarty240 packet).Preserves Mirrored := by
  apply Program.Preserves.only
  intro board inRange mirrored
  have same : reload (Function.update board.eeprom addressStarty240 packet.data1)
      board.currentCamPara = reload board.eeprom board.currentCamPara := by
    simp (disch := decide) [reload, loadTable_update]
  constructor
  · exact same.trans mirrored.settings
  · simp
  · simpa using inRange

theorem getCaminfo_mirrored : (getCaminfo packet).Preserves Mirrored := by
  have reply : (Program.acts [
      store ({ · with event := 23 }),
      store ({ · with data1 := camVer }),
      fun board => store ({ · with data2 := board.startY240 }) board,
      store ({ · with data3 := 0 })]).Preserves Mirrored := by
    intro board mirrored
    have event : Mirrored (store ({ · with event := 23 }) board) :=
      mirrored.storeReply fun _ _ => rfl
    have version : Mirrored (store ({ · with data1 := camVer }) _) :=
      event.storeReply fun _ _ => rfl
    have row : Mirrored (store (fun para => { para with data2 := board.startY240 }) _) :=
      version.storeReply fun _ _ => rfl
    have high : Mirrored (store (fun para => { para with data3 := 0 }) _) :=
      row.storeReply fun _ _ => rfl
    exact high
  have queue : (Program.acts [netsendFifoWrite]).Preserves Mirrored := by
    intro board mirrored
    exact mirrored.transfer rfl rfl rfl
  exact (((reply.append (aoiStart_mirrored packet)).append (aoiHeight_mirrored packet)).append
    queue).append (setStarty240_mirrored packet)

theorem setParaReset_mirrored : setParaReset.Preserves Mirrored := by
  intro board mirrored
  have starts := congrArg (·.openclothstart) mirrored.settings
  have ends := congrArg (·.openclothend) mirrored.settings
  simp only [reload] at starts ends
  constructor
  · simp only [setParaReset, headDefaults, imageDefaults, detectDefaults,
      List.cons_append, List.nil_append, Program.acts, Program.exec_act, Program.exec_done, store,
      save, cmosSetShutter, at24cxxWriteOneByte]
    simp (disch := decide) only [reload, loadTable_update, starts, ends]
    rfl
  · exact mirrored.startRow
  · exact mirrored.rowInside

/-- Each command writes each setting that it changes to the EEPROM. -/
theorem switch_mirrored (event : Event) : (switch packet event).Preserves Mirrored := by
  cases event with
  | watchImage => exact watchImage_mirrored packet
  | setDetectpara => exact setDetectpara_mirrored packet
  | setCamid => exact setCamid_mirrored packet
  | getCamver => exact getCamver_mirrored
  | getCaminfo => exact getCaminfo_mirrored packet
  | setStarty240 => exact setStarty240_mirrored packet
  | setAoi => exact setAoi_mirrored packet
  | setParaReset => exact setParaReset_mirrored
  | other => exact fun _ mirrored => mirrored


end Arms

/-- Each boot mirrors the EEPROM, whatever the EEPROM and the memory held. -/
theorem boot_mirrored (memory : SendPacket) (eeprom : Eeprom) : Mirrored (boot memory eeprom) := by
  rw [boot, initCamParaPacket, Program.exec]
  split
  · exact loadBranch_mirrored _
  · exact firstBootBranch_mirrored _

/-- Each boot leaves a marked EEPROM. -/
theorem boot_marked (memory : SendPacket) (eeprom : Eeprom) :
    (boot memory eeprom).eeprom addressMarker = 0x25 := by
  rw [boot, initCamParaPacket, Program.exec]
  split
  next marked =>
    rw [loadBranch_marker.exec]
    exact beq_iff_eq.mp marked
  next => rfl

/-- A boot from a marked EEPROM takes the load branch. -/
theorem boot_marked_loads (memory : SendPacket) {eeprom : Eeprom}
    (marked : eeprom addressMarker = 0x25) :
    boot memory eeprom = loadBranch.exec (powerOn memory eeprom) := by
  rw [boot, initCamParaPacket, Program.exec]
  exact if_pos (beq_iff_eq.mpr marked)

/-- A boot from any other EEPROM takes the first-boot branch. -/
theorem boot_fresh (memory : SendPacket) {eeprom : Eeprom} (fresh : eeprom addressMarker ≠ 0x25) :
    boot memory eeprom = firstBootBranch.exec (powerOn memory eeprom) := by
  rw [boot, initCamParaPacket, Program.exec]
  exact if_neg fun marked => fresh (beq_iff_eq.mp marked)

/-- A load of mirrored settings gives each setting that is in force. -/
theorem Mirrored.load {board : Board} (mirrored : Mirrored board) (memory : SendPacket) :
    let loaded := loadBranch.exec (powerOn memory board.eeprom)
    loaded.startY240 = board.startY240 ∧
      loaded.currentCamPara.settings = board.currentCamPara.settings ∧
      loaded.currentCamPara.id = board.eeprom packetId ∧ loaded.eeprom = board.eeprom := by
  have unlimited : ¬ decide (at24cxxReadOneByte board.eeprom addressStarty240 > 240) = true := by
    rw [mirrored.startRow, decide_eq_true_eq]
    exact UInt8.not_lt.mpr mirrored.rowInside
  have loads : loadBranch.exec (powerOn memory board.eeprom) = { powerOn memory board.eeprom with
      currentCamPara := { reload board.eeprom memory with
        id := at24cxxReadOneByte board.eeprom packetId
        status := at24cxxReadOneByte board.eeprom packetStatus }
      startY240 := at24cxxReadOneByte board.eeprom addressStarty240 } := by
    rw [loadBranch_exec, limitStartY240, Program.exec_only]
    exact if_neg unlimited
  rw [loads]
  have same : (reload board.eeprom memory).settings = board.currentCamPara.settings :=
    (reload_settings _ _ _).trans (congrArg _ mirrored.settings)
  exact ⟨mirrored.startRow, same, rfl, rfl⟩

/-- The command task handles these blocks in order. -/
def commands (board : Board) (blocks : List Block) : Board :=
  blocks.foldl (fun board block => (udpDataprocess block).exec board) board

/-- `SET_CAMID` writes this identity. -/
def writtenCamid (block : Block) : Option UInt8 :=
  let packet := SendPacket.ofBlock block
  if Block.event block = .setCamid ∧ 0 < packet.changeid ∧ packet.changeid < 21 ∧
      packet.changeid ≠ packet.id then some packet.changeid
  else none

/-- A command changes the stored identity exactly when it is a `SET_CAMID` with a new one. -/
theorem udpDataprocess_storedId (block : Block) (board : Board) :
    ((udpDataprocess block).exec board).eeprom packetId =
      (writtenCamid block).getD (board.eeprom packetId) := by
  unfold udpDataprocess writtenCamid
  generalize Block.event block = event
  generalize SendPacket.ofBlock block = packet
  cases event with
  | setCamid =>
      change ((setCamid packet).exec board).eeprom packetId = _
      rw [setCamid, Program.exec_only]
      by_cases valid : 0 < packet.changeid ∧ packet.changeid < 21 ∧ packet.changeid ≠ packet.id
      · simp [valid, Program.acts, write, at24cxxWriteOneByte]
      · rw [if_neg, if_neg]
        · rfl
        · simpa using valid
        · simpa [and_assoc] using valid
  | watchImage => exact (watchImage_keeps packet).2.2.1.exec board
  | setDetectpara => exact (setDetectpara_keeps packet).2.1.exec board
  | getCamver => exact getCamver_keeps.2.2.storedId.exec board
  | getCaminfo => exact (getCaminfo_keeps packet).storedId.exec board
  | setStarty240 => exact (setStarty240_keeps packet).2.storedId.exec board
  | setAoi => exact (setAoi_keeps packet).2.storedId.exec board
  | setParaReset => exact setParaReset_keeps.2.1.exec board
  | other => rfl

/-- No command changes the identity in RAM. -/
theorem switch_id (packet : SendPacket) (event : Event) :
    (switch packet event).Keeps fun board => board.currentCamPara.id := by
  cases event <;>
    simp [switch, watchImage, setDetectpara, storeExposure, setCamid, getCamver, getCaminfo,
      setStarty240, setAoi, aoiStart, storeAoiStart, aoiHeight, storeAoiHeight, setParaReset,
      headDefaults, imageDefaults, detectDefaults, store, save, write, cmosSetShutter,
      netsendFifoWrite]

/-- What holds of a running camera: the settings are mirrored, the EEPROM is marked, and the
stored identity is the last one written since the boot. -/
structure Running (booted : UInt8) (blocks : List Block) (board : Board) : Prop where
  mirrored : Mirrored board
  marked : board.eeprom addressMarker = 0x25
  id : board.currentCamPara.id = booted
  storedId : board.eeprom packetId = (blocks.filterMap writtenCamid).getLast?.getD booted

/-- Each boot starts a running camera. -/
theorem Running.boot (memory : SendPacket) (eeprom : Eeprom) :
    Running (boot memory eeprom).currentCamPara.id [] (Parameters.boot memory eeprom) where
  mirrored := boot_mirrored memory eeprom
  marked := boot_marked memory eeprom
  id := rfl
  storedId := by
    rw [Parameters.boot, initCamParaPacket, Program.exec]
    split
    · rw [loadBranch_exec, limitStartY240, Program.exec_only]
      split <;> rfl
    · rfl

/-- Each command keeps the camera running. -/
theorem Running.command {booted : UInt8} {blocks : List Block} {board : Board}
    (running : Running booted blocks board) (block : Block) :
    Running booted (blocks ++ [block]) ((udpDataprocess block).exec board) where
  mirrored := switch_mirrored _ _ board running.mirrored
  marked := ((switch_marker _ _).exec board).trans running.marked
  id := ((switch_id _ _).exec board).trans running.id
  storedId := by
    rw [udpDataprocess_storedId, running.storedId, List.filterMap_append]
    cases written : writtenCamid block with
    | none => simp [written]
    | some id => simp [written]

/-- All commands keep the camera running. -/
theorem Running.commands (memory : SendPacket) (eeprom : Eeprom) (blocks : List Block) :
    Running (Parameters.boot memory eeprom).currentCamPara.id blocks
      (commands (Parameters.boot memory eeprom) blocks) := by
  induction blocks using List.reverseRecOn with
  | nil => exact .boot memory eeprom
  | append_singleton blocks block ih =>
      rw [Parameters.commands, List.foldl_append]
      exact ih.command block

/-- A reboot loads each setting in force, and the identity that was last written. -/
theorem settings_mirrored (memory other : SendPacket) (eeprom : Eeprom) (blocks : List Block) :
    let board := commands (boot memory eeprom) blocks
    let loaded := loadBranch.exec (powerOn other board.eeprom)
    boot other board.eeprom = loaded ∧ loaded.startY240 = board.startY240 ∧
      loaded.currentCamPara.settings = board.currentCamPara.settings ∧
      loaded.currentCamPara.id =
        (blocks.filterMap writtenCamid).getLast?.getD board.currentCamPara.id := by
  have running := Running.commands memory eeprom blocks
  obtain ⟨row, settings, id, _⟩ := running.mirrored.load other
  have stored := running.storedId
  rw [← running.id] at stored
  exact ⟨boot_marked_loads other running.marked, row, settings, id.trans stored⟩

end NnpCamera.Parameters
