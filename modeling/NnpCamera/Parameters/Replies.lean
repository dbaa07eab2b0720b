/-
This file compares the replies of two runs that differ in the memory contents before the boot.
-/

import NnpCamera.Parameters.Settings

namespace NnpCamera.Parameters
open Library Board

/-- These fields still hold the bytes that were in memory before the boot. The table entries that
no loop of the boot visits always do. -/
structure Unset where
  /-- This is for `openclothnum`, `openclothid` and `changeid`. -/
  counters : Bool
  /-- This is for `data2` and `data3`. -/
  rows : Bool
  /-- This is for `event` and `data1`. -/
  reply : Bool
  deriving DecidableEq

/-- An unset byte comes from memory. -/
def graftByte (unset : Bool) (memory byte : UInt8) : UInt8 := if unset then memory else byte

/-- The entries of a table that no loop of the boot visits come from memory. -/
def graftTable (memory table : Fin 10 → UInt16) : Fin 10 → UInt16 :=
  fun entry => if entry ∈ clothEntries then table entry else memory entry

/-- The unset fields come from memory. -/
def SendPacket.graft (memory : SendPacket) (unset : Unset) (para : SendPacket) : SendPacket :=
  { para with
    openclothnum := graftByte unset.counters memory.openclothnum para.openclothnum
    openclothid := graftByte unset.counters memory.openclothid para.openclothid
    changeid := graftByte unset.counters memory.changeid para.changeid
    data2 := graftByte unset.rows memory.data2 para.data2
    data3 := graftByte unset.rows memory.data3 para.data3
    event := graftByte unset.reply memory.event para.event
    data1 := graftByte unset.reply memory.data1 para.data1
    openclothstart := graftTable memory.openclothstart para.openclothstart
    openclothend := graftTable memory.openclothend para.openclothend }

/-- A command assigns some of the unset fields. -/
def Unset.after (unset : Unset) : Event → Unset
  | .getCamver => { unset with reply := false }
  | .getCaminfo => { unset with rows := false, reply := false }
  | .setParaReset => ⟨false, false, false⟩
  | _ => unset

/-- The bytes of the unset fields. All other fields are zero. -/
def SendPacket.leftover (memory : SendPacket) (unset : Unset) : SendPacket :=
  memory.graft unset (ofBlock fun _ => 0)

/-- The unset fields of a board come from memory. -/
def Board.graft (memory : SendPacket) (unset : Unset) (board : Board) : Board :=
  { board with currentCamPara := memory.graft unset board.currentCamPara }

/-- A board that takes its own unset fields stays the same. -/
theorem graft_self (board : Board) (unset : Unset) :
    board.graft board.currentCamPara unset = board := by
  have byte (which : Bool) (byte : UInt8) : graftByte which byte byte = byte := by
    cases which <;> rfl
  have table (table : Fin 10 → UInt16) : graftTable table table = table := by
    funext entry
    exact ite_self _
  simp only [Board.graft, SendPacket.graft, byte, table]

/-- The last graft of the same fields counts. -/
theorem graft_graft (memory one two : SendPacket) (unset : Unset) :
    (memory.graft unset one).graft unset two = memory.graft unset two := by
  have byte (which : Bool) (memory one two : UInt8) :
      graftByte which (graftByte which memory one) two = graftByte which memory two := by
    cases which <;> rfl
  have table (memory one two : Fin 10 → UInt16) :
      graftTable (graftTable memory one) two = graftTable memory two := by
    funext entry
    by_cases visited : entry ∈ clothEntries
    · simp only [graftTable, if_pos visited]
    · simp only [graftTable, if_neg visited]
  simp only [SendPacket.graft, byte, table]

/-- Two memories give the same packet exactly when they agree on the unset fields. -/
theorem graft_eq_iff {first second : SendPacket} {unset : Unset} (para : SendPacket) :
    first.graft unset para = second.graft unset para ↔
      first.leftover unset = second.leftover unset := by
  constructor
  · intro same
    rw [SendPacket.leftover, ← graft_graft first para, same, graft_graft]
    rfl
  · intro same
    rw [← graft_graft first (.ofBlock fun _ => 0) para, ← SendPacket.leftover, same,
      SendPacket.leftover, graft_graft]

section Arms
variable (memory packet : SendPacket) (unset : Unset) (board : Board)

theorem watchImage_graft : (watchImage packet).exec (board.graft memory unset) =
    ((watchImage packet).exec board).graft memory unset :=
  Program.exec_branch_map rfl rfl rfl

theorem setDetectpara_graft : (setDetectpara packet).exec (board.graft memory unset) =
    ((setDetectpara packet).exec board).graft memory unset := by
  simp only [setDetectpara, Program.exec, ite_self]
  exact Program.exec_branch_map rfl rfl rfl

theorem setCamid_graft : (setCamid packet).exec (board.graft memory unset) =
    ((setCamid packet).exec board).graft memory unset :=
  Program.exec_branch_map rfl rfl rfl

theorem aoiStart_graft : (aoiStart packet).exec (board.graft memory unset) =
    ((aoiStart packet).exec board).graft memory unset :=
  Program.exec_branch_map rfl rfl rfl

theorem aoiHeight_graft : (aoiHeight packet).exec (board.graft memory unset) =
    ((aoiHeight packet).exec board).graft memory unset :=
  Program.exec_branch_map rfl rfl rfl

theorem setStarty240_graft : (setStarty240 packet).exec (board.graft memory unset) =
    ((setStarty240 packet).exec board).graft memory unset :=
  Program.exec_branch_map rfl rfl rfl

theorem setAoi_graft : (setAoi packet).exec (board.graft memory unset) =
    ((setAoi packet).exec board).graft memory unset := by
  rw [setAoi, Program.exec_append, aoiStart_graft, aoiHeight_graft, Program.exec_append]

/-- The reset assigns all fields but the table entries that no loop visits. -/
theorem setParaReset_graft : setParaReset.exec (board.graft memory unset) =
    (setParaReset.exec board).graft memory ⟨false, false, false⟩ := by
  rfl

/-- A command without a reply carries the unset fields along or assigns them. -/
theorem switch_graft {event : Event} (quiet : ¬ (event = .getCamver ∨ event = .getCaminfo)) :
    (switch packet event).exec (board.graft memory unset) =
      ((switch packet event).exec board).graft memory (unset.after event) := by
  cases event with
  | watchImage => exact watchImage_graft memory packet unset board
  | setDetectpara => exact setDetectpara_graft memory packet unset board
  | setCamid => exact setCamid_graft memory packet unset board
  | getCamver => simp at quiet
  | getCaminfo => simp at quiet
  | setStarty240 => exact setStarty240_graft memory packet unset board
  | setAoi => exact setAoi_graft memory packet unset board
  | setParaReset => exact setParaReset_graft memory unset board
  | other => rfl

/-- A command with a reply queues its packet with the fields that are still unset. The rest of
the board depends on memory through this packet only. -/
theorem switch_reply {event : Event} (asked : event = .getCamver ∨ event = .getCaminfo) :
    ∃ (reply : SendPacket) (finish : SendPacket → Board),
      (∀ memory : SendPacket, (switch packet event).exec (board.graft memory unset) =
        finish (memory.graft (unset.after event) reply)) ∧
      ∀ para, (finish para).queued = board.queued ++ [para] := by
  rcases asked with rfl | rfl
  · exact ⟨(getCamver.exec board).currentCamPara, fun para =>
      { board with currentCamPara := para, queued := board.queued ++ [para] },
      fun _ => rfl, fun _ => rfl⟩
  · let reply : Program Board := .acts [
      store ({ · with event := 23 }),
      store ({ · with data1 := camVer }),
      fun board => store ({ · with data2 := board.startY240 }) board,
      store ({ · with data3 := 0 })]
    let shown : Board := (reply ++ aoiStart packet ++ aoiHeight packet).exec board
    refine ⟨shown.currentCamPara, fun para => (setStarty240 packet).exec
      { shown with currentCamPara := para, queued := board.queued ++ [para] }, ?_, ?_⟩
    · intro memory
      have grafted : (reply ++ aoiStart packet ++ aoiHeight packet).exec (board.graft memory unset) =
          shown.graft memory (unset.after .getCaminfo) := by
        have assigned : reply.exec (board.graft memory unset) =
            (reply.exec board).graft memory (unset.after .getCaminfo) := rfl
        simp only [shown, Program.exec_append]
        rw [assigned, aoiStart_graft, aoiHeight_graft]
      have kept : shown.queued = board.queued := by
        have quiet : (reply ++ aoiStart packet ++ aoiHeight packet).Keeps (·.queued) := by
          simp [reply, aoiStart, storeAoiStart, aoiHeight, storeAoiHeight, store, save]
        exact quiet.exec board
      change (getCaminfo packet).exec _ = _
      rw [getCaminfo, Program.exec_append, Program.exec_append]
      change (setStarty240 packet).exec (netsendFifoWrite ((reply ++ _ ++ _).exec _)) = _
      rw [grafted, netsendFifoWrite, ← kept]
      rfl
    · intro para
      have quiet : (setStarty240 packet).Keeps (·.queued) := by simp [setStarty240, write]
      exact quiet.exec _

end Arms

/-- The first reply of a run shows these unset fields. -/
def firstReply : Unset → List Block → Option Unset
  | _, [] => none
  | unset, block :: rest =>
      let left := unset.after (Block.event block)
      if Block.event block = .getCamver ∨ Block.event block = .getCaminfo then some left
      else firstReply left rest

/-- A command appends to the queued replies. -/
theorem switch_queued (packet : SendPacket) (event : Event) (board : Board) :
    board.queued <+: ((switch packet event).exec board).queued := by
  by_cases asked : event = .getCamver ∨ event = .getCaminfo
  · let unset : Unset := ⟨false, false, false⟩
    obtain ⟨reply, finish, runs, queued⟩ := switch_reply packet unset board asked
    have run := runs board.currentCamPara
    rw [graft_self] at run
    rw [run, queued]
    exact List.prefix_append _ _
  · have quiet : (switch packet event).Keeps (·.queued) := by
      cases event <;> simp at asked <;>
        simp [switch, watchImage, setDetectpara, storeExposure, setCamid, setStarty240, setAoi,
          aoiStart, storeAoiStart, aoiHeight, storeAoiHeight, setParaReset, headDefaults,
          imageDefaults, detectDefaults, store, save, write, cmosSetShutter]
    rw [quiet.exec]

/-- No command takes back a reply. -/
theorem commands_queued (board : Board) (blocks : List Block) :
    board.queued <+: (commands board blocks).queued := by
  induction blocks generalizing board with
  | nil => exact List.prefix_rfl
  | cons block rest ih => exact (switch_queued _ _ board).trans (ih _)

/-- Two runs that differ in unset fields queue equal replies exactly when the memories agree on
all bytes that the first reply shows. -/
theorem queued_graft_iff (first second : SendPacket) (unset : Unset) (board : Board)
    (blocks : List Block) :
    (commands (board.graft first unset) blocks).queued =
        (commands (board.graft second unset) blocks).queued ↔
      ∀ shown ∈ firstReply unset blocks, first.leftover shown = second.leftover shown := by
  induction blocks generalizing unset board with
  | nil => simp [commands, firstReply, Board.graft]
  | cons block rest ih =>
      simp only [commands, List.foldl_cons, firstReply]
      by_cases asked : Block.event block = .getCamver ∨ Block.event block = .getCaminfo
      · obtain ⟨reply, finish, runs, queued⟩ :=
          switch_reply (SendPacket.ofBlock block) unset board asked
        rw [if_pos asked, udpDataprocess, runs, runs]
        simp only [Option.mem_def, Option.some.injEq, forall_eq', ← graft_eq_iff reply]
        constructor
        · intro same
          obtain ⟨one, firstRun⟩ := commands_queued (finish (first.graft _ reply)) rest
          obtain ⟨two, secondRun⟩ := commands_queued (finish (second.graft _ reply)) rest
          rw [queued] at firstRun secondRun
          have both := firstRun.trans (same.trans secondRun.symm)
          simp only [List.append_assoc, List.append_cancel_left_eq, List.singleton_append,
            List.cons.injEq] at both
          exact both.1
        · intro same
          rw [same]
      · rw [if_neg asked, udpDataprocess, switch_graft _ _ _ _ asked, switch_graft _ _ _ _ asked]
        exact ih _ _

/-- The load branch leaves all these fields as they were. The first-boot branch leaves the table
entries only. -/
def bootUnset (eeprom : Eeprom) : Unset :=
  if at24cxxReadOneByte eeprom addressMarker == 0x25 then ⟨true, true, true⟩
  else ⟨false, false, false⟩

theorem loadBranch_graft (memory : SendPacket) (eeprom : Eeprom) :
    loadBranch.exec (powerOn memory eeprom) =
      (loadBranch.exec (powerOn (.ofBlock fun _ => 0) eeprom)).graft memory ⟨true, true, true⟩ := by
  have table (address : Fin 10 → UInt8) (old blank : Fin 10 → UInt16) :
      loadTable eeprom address old = graftTable old (loadTable eeprom address blank) := by
    funext entry
    by_cases visited : entry ∈ clothEntries
    · simp only [loadTable, graftTable, if_pos visited]
    · simp only [loadTable, graftTable, if_neg visited]
  let blank : SendPacket := .ofBlock fun _ => 0
  let loaded (memory : SendPacket) : Board := { powerOn memory eeprom with
    currentCamPara := { reload eeprom memory with
      id := at24cxxReadOneByte eeprom packetId
      status := at24cxxReadOneByte eeprom packetStatus }
    startY240 := at24cxxReadOneByte eeprom addressStarty240 }
  have grafted : loaded memory = (loaded blank).graft memory ⟨true, true, true⟩ := by
    simp only [loaded, powerOn, reload, Board.graft, SendPacket.graft]
    rw [table clothStartAddress memory.openclothstart blank.openclothstart,
      table clothEndAddress memory.openclothend blank.openclothend]
    rfl
  have limited (unset : Unset) (board : Board) : limitStartY240.exec (board.graft memory unset) =
      (limitStartY240.exec board).graft memory unset := Program.exec_branch_map rfl rfl rfl
  calc loadBranch.exec (powerOn memory eeprom)
    _ = limitStartY240.exec (loaded memory) := loadBranch_exec _
    _ = (limitStartY240.exec (loaded blank)).graft memory ⟨true, true, true⟩ := by
        rw [grafted, limited]
    _ = (loadBranch.exec (powerOn blank eeprom)).graft memory ⟨true, true, true⟩ := by
        rw [loadBranch_exec]
        rfl

/-- The first-boot branch leaves the table entries that its loop does not visit. -/
theorem firstBootBranch_graft (memory : SendPacket) (eeprom : Eeprom) :
    firstBootBranch.exec (powerOn memory eeprom) =
      (firstBootBranch.exec (powerOn (.ofBlock fun _ => 0) eeprom)).graft memory
        ⟨false, false, false⟩ := by
  let defaults : Program Board := .acts (headDefaults ++ [
    store ({ · with id := 1 }),
    save packetId (·.id)] ++ imageDefaults ++ detectDefaults)
  have assigned : defaults.exec (powerOn memory eeprom) =
      let blank := defaults.exec (powerOn (.ofBlock fun _ => 0) eeprom)
      { blank with currentCamPara := { blank.currentCamPara with
          openclothstart := memory.openclothstart
          openclothend := memory.openclothend } } := rfl
  have table (memory old : Fin 10 → UInt16) :
      (fun entry => if entry ∈ clothEntries then 0 else memory entry) =
        graftTable memory fun entry => if entry ∈ clothEntries then 0 else old entry := by
    funext entry
    by_cases visited : entry ∈ clothEntries
    · simp only [graftTable, if_pos visited]
    · simp only [graftTable, if_neg visited]
  rw [firstBootBranch_parts, Program.exec_append, Program.exec_append, Program.exec_append,
    Program.exec_append]
  change Program.exec _ (Program.exec _ (defaults.exec _)) =
    (Program.exec _ (Program.exec _ (defaults.exec _))).graft _ _
  rw [assigned]
  generalize defaults.exec (powerOn (.ofBlock fun _ => 0) eeprom) = blank
  rw [clearEntries_exec, clearEntries_exec]
  dsimp only
  rw [table memory.openclothstart blank.currentCamPara.openclothstart,
    table memory.openclothend blank.currentCamPara.openclothend]
  rfl

/-- A boot leaves the unset fields as they were in memory. -/
theorem boot_graft (memory : SendPacket) (eeprom : Eeprom) :
    boot memory eeprom = (boot (.ofBlock fun _ => 0) eeprom).graft memory (bootUnset eeprom) := by
  by_cases marked : eeprom addressMarker = 0x25
  · have load : bootUnset eeprom = ⟨true, true, true⟩ := if_pos (beq_iff_eq.mpr marked)
    rw [boot_marked_loads _ marked, boot_marked_loads _ marked, load]
    exact loadBranch_graft memory eeprom
  · have first : bootUnset eeprom = ⟨false, false, false⟩ :=
      if_neg fun same => marked (beq_iff_eq.mp same)
    rw [boot_fresh _ marked, boot_fresh _ marked, first]
    exact firstBootBranch_graft memory eeprom

/-- The reply blocks of a run. `mymalloc` returned 76 bytes with these contents. -/
def replies (memory : Block) (eeprom : Eeprom) (blocks : List Block) : List Block :=
  (commands (boot (.ofBlock memory) eeprom) blocks).queued.map SendPacket.toBlock

/-- A run shows no unset field exactly when no command asks for a reply. -/
theorem firstReply_none_iff (unset : Unset) (blocks : List Block) :
    firstReply unset blocks = none ↔
      ∀ block ∈ blocks, ¬ (Block.event block = .getCamver ∨ Block.event block = .getCaminfo) := by
  induction blocks generalizing unset with
  | nil => simp [firstReply]
  | cons block rest ih =>
      by_cases asked : Block.event block = .getCamver ∨ Block.event block = .getCaminfo
      · rw [firstReply, if_pos asked]
        simp only [reduceCtorEq, false_iff]
        exact fun quiet => quiet block (List.mem_cons_self ..) asked
      · rw [firstReply, if_neg asked, ih, List.forall_mem_cons]
        exact ⟨fun quiet => ⟨asked, quiet⟩, fun quiet => quiet.2⟩

/-- The replies of two runs are equal exactly when the memories agree on all unset bytes that the
first reply shows. -/
theorem replies_eq_iff (first second : Block) (eeprom : Eeprom) (blocks : List Block) :
    replies first eeprom blocks = replies second eeprom blocks ↔
      ∀ shown ∈ firstReply (bootUnset eeprom) blocks,
        (SendPacket.ofBlock first).leftover shown = (SendPacket.ofBlock second).leftover shown := by
  rw [replies, replies, (List.map_injective_iff.mpr SendPacket.toBlock_injective).eq_iff,
    boot_graft (.ofBlock first), boot_graft (.ofBlock second)]
  exact queued_graft_iff _ _ _ _ _

/-- Memory of zeros and memory of ones differ in each choice of unset fields. -/
theorem leftover_zeros_ones (shown : Unset) :
    (SendPacket.ofBlock fun _ => 0).leftover shown ≠ (SendPacket.ofBlock fun _ => 1).leftover shown := by
  intro same
  have entries : littleEndian 0 0 = littleEndian 1 1 :=
    congrFun (congrArg SendPacket.openclothstart same) 6
  exact absurd entries (by decide)

/-- For each EEPROM and all commands, the replies of two runs are equal exactly when the memories
agree on all unset bytes that the first reply shows. They are equal for all memories exactly when
no command asks for a reply. -/
theorem replies_determined (eeprom : Eeprom) (blocks : List Block) :
    (∀ first second, replies first eeprom blocks = replies second eeprom blocks ↔
      ∀ shown ∈ firstReply (bootUnset eeprom) blocks,
        (SendPacket.ofBlock first).leftover shown = (SendPacket.ofBlock second).leftover shown) ∧
    ((∀ first second, replies first eeprom blocks = replies second eeprom blocks) ↔
      ∀ block ∈ blocks, ¬ (Block.event block = .getCamver ∨ Block.event block = .getCaminfo)) := by
  refine ⟨fun first second => replies_eq_iff first second eeprom blocks, ?_⟩
  rw [← firstReply_none_iff (bootUnset eeprom)]
  constructor
  · intro equal
    have agree := (replies_eq_iff _ _ eeprom blocks).mp (equal (fun _ => 0) fun _ => 1)
    rw [Option.eq_none_iff_forall_ne_some]
    intro shown found
    exact leftover_zeros_ones shown (agree shown found)
  · intro none first second
    rw [replies_eq_iff, none]
    simp

/-- This `GET_CAMVER` block asks for the version. -/
def versionBlock : Block := fun index => if index = 3 then 22 else 0

/-- After a first boot, the reply with the version shows an old byte of memory. -/
theorem replies_show_memory :
    replies (fun _ => 0) (fun _ => 0) [versionBlock] ≠
      replies (fun _ => 1) (fun _ => 0) [versionBlock] := by
  intro same
  have bytes := congrArg (List.map fun reply => reply 44) same
  exact absurd bytes (by decide +kernel)

end NnpCamera.Parameters
