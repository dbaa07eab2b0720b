/-
This file models the reassembly of IP datagrams from their fragments.
-/

import NnpCamera.Network.InetChksum

namespace NnpCamera.Network
open Library

/-- The header of an IP packet. The checksum and the addresses are as they are stored, and the other
fields are numbers. -/
structure IpHdr where
  vhl : UInt8
  tos : UInt8
  len : UInt16
  id : UInt16
  offset : UInt16
  ttl : UInt8
  proto : UInt8
  chksum : UInt16
  src : UInt32
  dest : UInt32
  deriving DecidableEq

def ipHlen : Nat := 20
def ipMf : UInt16 := 0x2000
def ipOffmask : UInt16 := 0x1fff

def ipReassMaxPbufs : Nat := 10
def ipReassMaxage : Nat := 3
def mempNumReassdata : Nat := 5

namespace IpHdr
variable (iphdr : IpHdr)

/-- `IPH_HL` is the length in words. -/
def hl : Nat := (iphdr.vhl &&& 15).toNat

/-- The place of the payload in the datagram. -/
def start : UInt16 := (iphdr.offset &&& ipOffmask) * 8

/-- More fragments follow. -/
def mf : Bool := iphdr.offset &&& ipMf ≠ 0

/-- The length of the payload. -/
def dataLen : UInt16 := iphdr.len - UInt16.ofNat (4 * iphdr.hl)

/-- The bytes of the header without options. -/
def bytes : List UInt8 :=
  [iphdr.vhl, iphdr.tos, (iphdr.len >>> 8).toUInt8, iphdr.len.toUInt8,
    (iphdr.id >>> 8).toUInt8, iphdr.id.toUInt8, (iphdr.offset >>> 8).toUInt8, iphdr.offset.toUInt8,
    iphdr.ttl, iphdr.proto, iphdr.chksum.toUInt8, (iphdr.chksum >>> 8).toUInt8,
    iphdr.src.toUInt8, (iphdr.src >>> 8).toUInt8, (iphdr.src >>> 16).toUInt8,
    (iphdr.src >>> 24).toUInt8, iphdr.dest.toUInt8, (iphdr.dest >>> 8).toUInt8,
    (iphdr.dest >>> 16).toUInt8, (iphdr.dest >>> 24).toUInt8]

end IpHdr

/-- `IP_ADDRESSES_AND_ID_MATCH` -/
def ipAddressesAndIdMatch (iphdrA iphdrB : IpHdr) : Bool :=
  iphdrA.src = iphdrB.src ∧ iphdrA.dest = iphdrB.dest ∧ iphdrA.id = iphdrB.id

/-- A fragment as `ip_input` hands it over: a header and the bytes behind it in each buffer, trimmed to
the length in the header. -/
structure Fragment where
  iphdr : IpHdr
  chain : List (List UInt8)
  filled : 0 < chain.length
  trimmed : 4 * iphdr.hl + chain.flatten.length = iphdr.len.toNat

/-- A fragment in the queue of its datagram. -/
structure IpReassHelper where
  start : UInt16
  stop : UInt16
  chain : List (List UInt8)
  deriving DecidableEq

/-- A datagram whose fragments are collected. -/
structure IpReassdata where
  p : List IpReassHelper
  iphdr : IpHdr
  datagramLen : UInt16
  lastfrag : Bool
  timer : Nat
  deriving DecidableEq

/-- The datagrams, the newest one first, and the number of their buffers. -/
structure IpReass where
  reassdatagrams : List IpReassdata
  pbufcount : Nat
  deriving DecidableEq

/-- A whole datagram. -/
structure Datagram where
  iphdr : IpHdr
  chain : List (List UInt8)
  deriving DecidableEq

/-- A hole between two fragments makes the datagram incomplete. -/
def checkHole (iprhPrev : Option IpReassHelper) (valid : Bool) (iprh : IpReassHelper) : Bool :=
  match iprhPrev with
  | some iprhPrev => if iprhPrev.stop ≠ iprh.start then false else valid
  | none => valid

/-- A fragment is inserted before the first one that starts behind it. The walk checks that the
fragments that it passes have no holes. It gives up when the fragment overlaps another one. -/
def insertFragment (iprh : IpReassHelper) (iprhPrev : Option IpReassHelper) (valid : Bool) :
    List IpReassHelper → Option (List IpReassHelper × List IpReassHelper × Bool)
  | [] => some ([], [], checkHole iprhPrev valid iprh)
  | q :: rest =>
      if iprh.start < q.start then
        match iprhPrev with
        | some iprhPrev =>
            if iprh.start < iprhPrev.stop ∨ q.start < iprh.stop then none
            else some ([], q :: rest, valid)
        | none => some ([], q :: rest, valid)
      else if iprh.start = q.start then none
      else if iprh.start < q.stop then none
      else
        (insertFragment iprh (some q) (checkHole iprhPrev valid q) rest).map
          fun (before, after, valid) => (q :: before, after, valid)

/-- No holes are behind this fragment. -/
def noHoles (iprhPrev : IpReassHelper) : List IpReassHelper → Bool
  | [] => true
  | iprh :: rest => if iprhPrev.stop ≠ iprh.start then false else noHoles iprh rest

namespace IpReassdata
variable (ipr : IpReassdata)

/-- The buffers of a datagram. -/
def buffers : List (List UInt8) := ipr.p.flatMap IpReassHelper.chain

/-- The queue with the fragment, and whether the datagram is complete. Nothing is returned when the
fragment is dropped. -/
def ipReassChainFragIntoDatagramAndValidate (iprh : IpReassHelper) : Option (IpReassdata × Bool) :=
  (insertFragment iprh none true ipr.p).map fun (before, after, valid) =>
    let p := before ++ iprh :: after
    ({ ipr with p := p },
      ipr.lastfrag && valid && (p.head?.any fun first => first.start = 0) && noHoles iprh after)

/-- The header of the first fragment is kept. -/
def keepHeader (fraghdr : IpHdr) : IpReassdata :=
  if fraghdr.offset &&& ipOffmask = 0 ∧ ipr.iphdr.offset &&& ipOffmask ≠ 0 then
    { ipr with iphdr := fraghdr }
  else ipr

/-- The last fragment gives the length. -/
def noteLast (fraghdr : IpHdr) : IpReassdata :=
  if fraghdr.mf then ipr
  else { ipr with lastfrag := true, datagramLen := fraghdr.start + fraghdr.dataLen }

/-- The header and the buffers of a complete datagram. -/
def whole : Datagram where
  iphdr :=
    let iphdr := { ipr.iphdr with len := ipr.datagramLen + 20, offset := 0, chksum := 0 }
    { iphdr with chksum := inetChksum 0 iphdr.bytes }
  chain := ipr.buffers

end IpReassdata

/-- The older one of two datagrams. The datagram of the header is not counted. -/
def older (fraghdr : IpHdr) (oldest : Option (IpReassdata × Nat)) (r : IpReassdata × Nat) :
    Option (IpReassdata × Nat) :=
  if ipAddressesAndIdMatch r.1.iphdr fraghdr then oldest
  else match oldest with
    | none => some r
    | some oldest => if r.1.timer ≤ oldest.1.timer then some r else some oldest

namespace IpReass
variable (reass : IpReass)

/-- The link to a datagram is replaced by the link behind it. The caller gives the datagram whose link
is changed. Nothing is returned when that is another link, which leaves the list broken. -/
def ipReassDequeueDatagram (ipr : Nat) (prev : Option Nat) : Option (List IpReassdata) :=
  if ipr = 0 ∨ prev.map (· + 1) = some ipr then some (reass.reassdatagrams.eraseIdx ipr) else none

/-- The number of buffers that are freed, and the rest. -/
def ipReassFreeCompleteDatagram (ipr : Nat) (prev : Option Nat) : Option (Nat × IpReass) :=
  let pbufsFreed := (reass.reassdatagrams[ipr]?.map fun r => r.buffers.length).getD 0
  (reass.ipReassDequeueDatagram ipr prev).map fun rest =>
    (pbufsFreed, ⟨rest, reass.pbufcount - pbufsFreed⟩)

/-- The timers count down, and the datagrams whose time is over are freed. -/
def ipReassTmr : IpReass where
  reassdatagrams := (reass.reassdatagrams.filter fun r => 0 < r.timer).map fun r =>
    { r with timer := r.timer - 1 }
  pbufcount := reass.pbufcount -
    ((reass.reassdatagrams.filter fun r => r.timer = 0).flatMap IpReassdata.buffers).length

/-- The other datagram with the smallest timer. The last one of equals is the oldest. -/
def oldestDatagram (fraghdr : IpHdr) : Option (IpReassdata × Nat) :=
  reass.reassdatagrams.zipIdx.foldl (older fraghdr) none

/-- The number of datagrams other than that of the header. -/
def otherDatagrams (fraghdr : IpHdr) : Nat :=
  (reass.reassdatagrams.filter fun r => !ipAddressesAndIdMatch r.iphdr fraghdr).length

/-- The last datagram that has a link to another one. -/
def prevDatagram : Option Nat :=
  if 2 ≤ reass.reassdatagrams.length then some (reass.reassdatagrams.length - 2) else none

/-- The oldest datagrams are freed until enough buffers are free. Each pass frees one datagram. -/
def removeOldest (fraghdr : IpHdr) (pbufsNeeded : Nat) : Nat → Nat → IpReass → Option (Nat × IpReass)
  | 0, pbufsFreed, reass => some (pbufsFreed, reass)
  | passes + 1, pbufsFreed, reass =>
      match reass.oldestDatagram fraghdr with
      | none => some (pbufsFreed, reass)
      | some (_, oldest) =>
          (reass.ipReassFreeCompleteDatagram oldest reass.prevDatagram).bind fun (current, rest) =>
            if pbufsFreed + current < pbufsNeeded ∧ 1 < reass.otherDatagrams fraghdr then
              removeOldest fraghdr pbufsNeeded passes (pbufsFreed + current) rest
            else some (pbufsFreed + current, rest)

def ipReassRemoveOldestDatagram (fraghdr : IpHdr) (pbufsNeeded : Nat) : Option (Nat × IpReass) :=
  removeOldest fraghdr pbufsNeeded reass.reassdatagrams.length 0 reass

/-- The datagram is the first of the list, when there is room for it. -/
def ipReassEnqueueNewDatagram (fraghdr : IpHdr) (clen : Nat) : Option (Bool × IpReass) :=
  let enqueue (reass : IpReass) : IpReass :=
    { reass with reassdatagrams := ⟨[], fraghdr, 0, false, ipReassMaxage⟩ :: reass.reassdatagrams }
  if reass.reassdatagrams.length < mempNumReassdata then some (true, enqueue reass)
  else
    (reass.ipReassRemoveOldestDatagram fraghdr clen).map fun (freed, rest) =>
      if clen ≤ freed ∧ rest.reassdatagrams.length < mempNumReassdata then (true, enqueue rest)
      else (false, rest)

/-- The oldest datagrams make room for the buffers of a fragment. -/
def makeRoom (fraghdr : IpHdr) (clen : Nat) : Option (Bool × IpReass) :=
  if reass.pbufcount + clen ≤ ipReassMaxPbufs then some (true, reass)
  else
    (reass.ipReassRemoveOldestDatagram fraghdr clen).map fun (freed, rest) =>
      (decide (freed ≠ 0 ∧ rest.pbufcount + clen ≤ ipReassMaxPbufs), rest)

/-- The datagram of a fragment and its place. A new datagram is begun when there is none. -/
def findDatagram (fraghdr : IpHdr) (clen : Nat) : Option (Option (Nat × IpReassdata) × IpReass) :=
  match reass.reassdatagrams.findIdx? fun ipr => ipAddressesAndIdMatch ipr.iphdr fraghdr with
  | some index =>
      some (reass.reassdatagrams[index]?.map fun ipr => (index, ipr.keepHeader fraghdr), reass)
  | none =>
      (reass.ipReassEnqueueNewDatagram fraghdr clen).map fun (begun, reass) =>
        (if begun then reass.reassdatagrams.head?.map fun ipr => (0, ipr) else none, reass)

/-- The fragment is added to its datagram, which leaves the queue when it is complete. -/
def addFragment (index : Nat) (ipr : IpReassdata) (p : Fragment) : Option Datagram × IpReass :=
  let ipr := ipr.noteLast p.iphdr
  match ipr.ipReassChainFragIntoDatagramAndValidate
      ⟨p.iphdr.start, p.iphdr.start + p.iphdr.dataLen, p.chain⟩ with
  | none => (none, { reass with reassdatagrams := reass.reassdatagrams.set index ipr })
  | some (ipr, complete) =>
      let pbufcount := reass.pbufcount + p.chain.length
      if complete then
        (some ipr.whole, ⟨reass.reassdatagrams.eraseIdx index, pbufcount - ipr.buffers.length⟩)
      else (none, ⟨reass.reassdatagrams.set index ipr, pbufcount⟩)

/-- The complete datagram, when the fragment is the one that was missing. Packets with options are
dropped. -/
def ipReass (p : Fragment) : Option (Option Datagram × IpReass) :=
  if 4 * p.iphdr.hl ≠ ipHlen then some (none, reass)
  else (reass.makeRoom p.iphdr p.chain.length).bind fun (room, reass) =>
    if room then (reass.findDatagram p.iphdr p.chain.length).map fun (found, reass) =>
      match found with
      | none => (none, reass)
      | some (index, ipr) => reass.addFragment index ipr p
    else some (none, reass)

end IpReass

end NnpCamera.Network
