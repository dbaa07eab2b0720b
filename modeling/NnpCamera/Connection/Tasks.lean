/-
This file models the tasks that share `udpconn`. Each access and each call is a step of its own.
-/

import NnpCamera.Library.Runs
import NnpCamera.Image.Camera

namespace NnpCamera.Connection
open Library Parameters
open Image (ErrT udpImageDc udpImageVc)

/-- Each connection has its own number, and `none` is the null pointer. -/
abbrev Pointer := Option Nat

/-- `udp_thread` makes these calls. The first delete follows a failed bind or connect. -/
inductive ThreadCall where
  | bind
  | connect
  | deleteUnbound
  | getaddr
  | recv
  | close
  | delete
  deriving DecidableEq

/-- The next step of `udp_thread`. A call reads its argument before it passes it. -/
inductive ThreadPoint where
  | netconnNew
  | storeUdpconn (conn : Pointer)
  | setTimeout
  | testNew
  | read (call : ThreadCall)
  | pass (call : ThreadCall) (argument : Pointer)
  | setUdpFlag
  | testClosing
  | clearUdpFlag
  deriving DecidableEq

/-- `udp_send_task` makes these calls. -/
inductive SenderCall where
  | send
  | close
  | delete
  deriving DecidableEq

/-- The next step of `udp_send_task`. -/
inductive SenderPoint where
  | read (call : SenderCall)
  | pass (call : SenderCall) (argument : Pointer)
  | testClosing
  | clearUdpFlag

/-- The next step of `imgcamera_task`. The number counts the sends that are still to follow. -/
inductive ImagerPoint where
  | testUdpFlag
  | read (later : Nat)
  | pass (later : Nat) (argument : Pointer)
  | clearUdpFlag (later : Nat)

/-- The state of the three tasks. The list is history: it holds the connections that
`netconn_delete` has taken since the last store of a new connection. -/
structure Link where
  udpconn : Pointer
  udpFlag : UInt8
  err : ErrT
  created : Nat
  deleted : List Nat
  thread : ThreadPoint
  sender : SenderPoint
  imager : ImagerPoint

/-- These results make `udp_thread` and `udp_send_task` close the connection. -/
def Closing (result : ErrT) : Prop :=
  result = .clsd ∨ result = .rst ∨ result = .abrt ∨ result = .conn

instance (result : ErrT) : Decidable (Closing result) := inferInstanceAs (Decidable (_ ∨ _))

/-- `netconn_delete` ignores a null pointer. -/
def Link.netconnDelete (link : Link) (conn : Pointer) : Link :=
  { link with deleted := conn.toList ++ link.deleted }

/-- `udp_thread` uses the connection only when `err` is `ERR_OK`. -/
def Link.testErr (link : Link) : Link :=
  { link with thread := if link.err = .ok then .setUdpFlag else .read .deleteUnbound }

/-- `udp_thread` continues with the result of its call. -/
def Link.threadReturn (link : Link) (call : ThreadCall) (argument : Pointer) (result : ErrT) :
    Link :=
  match call with
  | .bind => { link with err := result, thread := .read .connect }
  | .connect => { link with err := result }.testErr
  | .deleteUnbound => { link.netconnDelete argument with thread := .netconnNew }
  | .getaddr => { link with thread := .read .recv }
  | .recv => { link with thread := if Closing result then .testClosing else .read .recv }
  | .close => { link with thread := .read .delete }
  | .delete => { link.netconnDelete argument with thread := .clearUdpFlag }

/-- `udp_thread` executes its next step. `netconn_new` returns a connection or a null pointer. -/
def Link.udpThread (link : Link) (result : ErrT) : Link :=
  match link.thread with
  | .netconnNew =>
      if result = .ok then
        { link with created := link.created + 1, thread := .storeUdpconn (some link.created) }
      else { link with thread := .storeUdpconn none }
  | .storeUdpconn conn => { link with udpconn := conn, deleted := [], thread := .setTimeout }
  | .setTimeout => { link with thread := .testNew }
  | .testNew =>
      -- A null pointer keeps the old value of `err`.
      if link.udpconn = none then link.testErr else { link with thread := .read .bind }
  | .read call => { link with thread := .pass call link.udpconn }
  | .pass call argument => link.threadReturn call argument result
  | .setUdpFlag => { link with udpFlag := 1, thread := .read .getaddr }
  | .testClosing =>
      { link with thread := if link.udpconn = none then .read .recv else .read .close }
  | .clearUdpFlag => { link with udpFlag := 0, thread := .netconnNew }

/-- `udp_send_task` executes its next step. -/
def Link.udpSendTask (link : Link) (result : ErrT) : Link :=
  match link.sender with
  | .read call => { link with sender := .pass call link.udpconn }
  | .pass .send _ =>
      { link with sender := if Closing result then .testClosing else .read .send }
  | .pass .close _ => { link with sender := .read .delete }
  | .pass .delete argument => { link.netconnDelete argument with sender := .clearUdpFlag }
  | .testClosing =>
      { link with sender := if link.udpconn = none then .read .send else .read .close }
  | .clearUdpFlag => { link with udpFlag := 0, sender := .read .send }

/-- The image modes that have a branch in `imgcamera_task`. -/
inductive ImageMode where
  | stream
  | image
  | aoi (currentCamPara : SendPacket)

/-- A trailer follows this number of image packets. -/
def ImageMode.packets : ImageMode → Nat
  | .stream => udpImageDc
  | .image => udpImageVc
  | .aoi currentCamPara => currentCamPara.udpPacketCount.toNat

/-- `imgcamera_task` starts its next send or waits for its next request. -/
def ImagerPoint.resume : Nat → ImagerPoint
  | 0 => .testUdpFlag
  | later + 1 => .read later

/-- `imgcamera_task` executes its next step. It only marks the link as down. -/
def Link.imgcameraTask (link : Link) (mode : ImageMode) (result : ErrT) : Link :=
  match link.imager with
  | .testUdpFlag =>
      { link with imager := if link.udpFlag = 1 then .read mode.packets else .testUdpFlag }
  | .read later => { link with imager := .pass later link.udpconn }
  | .pass later _ =>
      if result = .clsd ∨ result = .rst then { link with imager := .clearUdpFlag later }
      else { link with imager := .resume later }
  | .clearUdpFlag later => { link with udpFlag := 0, imager := .resume later }

/-- One task takes its next step, and a call returns any result. -/
inductive LinkEvent where
  | udpThread (result : ErrT)
  | udpSendTask (result : ErrT)
  | imgcameraTask (mode : ImageMode) (result : ErrT)

/-- This system interleaves the three tasks in every order. -/
def linkSystem : System Link LinkEvent where
  step link event :=
    match event with
    | .udpThread result => some (link.udpThread result)
    | .udpSendTask result => some (link.udpSendTask result)
    | .imgcameraTask mode result => some (link.imgcameraTask mode result)

/-- All tasks stand at their starts. The variable `err` has no initial value. -/
def initialLink (err : ErrT) : Link where
  udpconn := none
  udpFlag := 0
  err := err
  created := 0
  deleted := []
  thread := .netconnNew
  sender := .read .send
  imager := .testUdpFlag

/-- The connection that a step passes to `netconn_send`. -/
def Link.sent (link : Link) : LinkEvent → Pointer
  | .udpThread _ => none
  | .udpSendTask _ =>
      match link.sender with
      | .pass .send argument => argument
      | _ => none
  | .imgcameraTask _ _ =>
      match link.imager with
      | .pass _ argument => argument
      | _ => none

/-- The connection that a step passes to `netconn_recv`, `netconn_close` or `netconn_delete`. -/
def Link.released (link : Link) : LinkEvent → Pointer
  | .udpThread _ =>
      match link.thread with
      | .pass .deleteUnbound argument => argument
      | .pass .recv argument => argument
      | .pass .close argument => argument
      | .pass .delete argument => argument
      | _ => none
  | .udpSendTask _ =>
      match link.sender with
      | .pass .close argument => argument
      | .pass .delete argument => argument
      | _ => none
  | .imgcameraTask _ _ => none

/-- A step passes a connection that is deleted and not yet replaced. -/
def UsesDeleted (link : Link) (event : LinkEvent) : Prop :=
  ∃ conn ∈ link.deleted, link.sent event = some conn ∨ link.released event = some conn

instance (link : Link) (event : LinkEvent) : Decidable (UsesDeleted link event) :=
  inferInstanceAs (Decidable (∃ _ ∈ _, _ ∨ _))

end NnpCamera.Connection
