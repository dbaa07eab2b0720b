/-
This file shows that the reassembly hands on the payloads that were sent, in each run of fragments in any
order with losses and repetitions.
-/

import NnpCamera.Network.ReassemblyQueue

namespace NnpCamera.Network
open Library
open IpReass (Opened Sound sound_of_reachable)

namespace Senders
variable {senders : Senders} {reass rest : IpReass} {p : Fragment}

/-- Each fragment that arrives is a piece of a datagram that was sent. -/
def Sends (senders : Senders) : IpEvent → Prop
  | .fragment p => senders.Sent p
  | .tmr => True

/-- Each datagram has 32 bytes, which are cut into four pieces. -/
def inFour : Senders where
  payload _ := List.replicate 32 0
  piece _ start stop := start % 8 = 0 ∧ stop = start + 8 ∧ start < 32
  short _ := by decide
  inside cut := by
    rw [List.length_replicate]
    omega
  apart cut other := by omega

/-- One of the pieces. -/
def quarter (index : UInt16) : Fragment :=
  IpReass.eightBytes 1 (index + if index = 3 then 0 else ipMf)

instance (p : Fragment) : Decidable (inFour.Sent p) :=
  decidable_of_iff (((p.iprh.start.toNat % 8 = 0 ∧ p.iprh.stop.toNat = p.iprh.start.toNat + 8 ∧
      p.iprh.start.toNat < 32) ∧
    p.chain.flatten = ((List.replicate 32 0).take p.iprh.stop.toNat).drop p.iprh.start.toNat) ∧
    (p.iphdr.mf = false ↔ p.iprh.stop.toNat = (List.replicate 32 (0 : UInt8)).length))
    ⟨fun sent => ⟨⟨sent.1.1, sent.1.2⟩, sent.2⟩, fun sent => ⟨⟨sent.1.1, sent.1.2⟩, sent.2⟩⟩

instance : (event : IpEvent) → Decidable (inFour.Sends event)
  | .fragment p => inferInstanceAs (Decidable (inFour.Sent p))
  | .tmr => instDecidableTrue

/-- All datagrams of the queue are collected from their pieces. -/
def Collected (senders : Senders) (reass : IpReass) : Prop :=
  ∀ ipr ∈ reass.reassdatagrams, senders.Collects ipr

theorem Collects.congr {ipr next : IpReassdata} (collects : senders.Collects ipr) (p : next.p = ipr.p)
    (named : next.iphdr.key = ipr.iphdr.key) (last : next.lastfrag = ipr.lastfrag)
    (length : next.datagramLen = ipr.datagramLen) : senders.Collects next := by
  constructor
  · rw [p, named]
    exact collects.queued
  · rw [p]
    exact collects.order
  · rw [p, named, last]
    exact collects.last
  · rw [named, last, length]
    exact collects.length

/-- The datagram of a fragment is collected from its pieces before the fragment is added. -/
theorem Collected.opened (collected : senders.Collected reass) {middle : IpReass}
    {before after : List IpReassdata} {ipr : IpReassdata}
    (opened : Opened reass p middle before after ipr) : senders.Collects ipr := by
  obtain ⟨old, member, named, rfl⟩ | ⟨_, rfl⟩ := opened.origin
  · obtain ⟨same, key, _, last, length⟩ := IpReass.keepHeader_fields old named
    exact (collected old member).congr same key last length
  · exact ⟨by simp, .nil, by simp, by simp⟩

/-- The fragment joins a fragment of its datagram in the queue. -/
theorem joins_iff {middle : IpReass} {before after : List IpReassdata} {ipr : IpReassdata}
    (opened : Opened reass p middle before after ipr) (sound : Sound reass) :
    Joins ipr p ↔ p.iphdr.start = 0 ∨ ∃ ipr ∈ reass.reassdatagrams, ipr.iphdr.key = p.iphdr.key ∧
      ∃ q ∈ ipr.p, q.stop = p.iphdr.start := by
  refine or_congr_right ?_
  obtain ⟨old, member, named, rfl⟩ | ⟨none, rfl⟩ := opened.origin
  · rw [(IpReass.keepHeader_fields old named).1]
    constructor
    · exact fun found => ⟨old, member, named, found⟩
    · rintro ⟨other, known, same, found⟩
      obtain rfl := sound.unique member known (named.trans same.symm)
      exact found
  · simp only [List.not_mem_nil, false_and, exists_false, false_iff, not_exists, not_and]
    exact fun other member named => absurd named (none other member)

/-- The datagrams stay collected from their pieces. -/
theorem Collected.step (collected : senders.Collected reass) (sound : Sound reass)
    {event : IpEvent} (sends : senders.Sends event)
    (stepped : reassembly.step reass event = some rest) : senders.Collected rest := by
  cases event with
  | tmr =>
      obtain rfl := Option.some.inj stepped
      intro ipr member
      obtain ⟨old, known, rfl⟩ := List.mem_map.mp member
      exact (collected old (List.mem_of_mem_filter known)).congr rfl rfl rfl rfl
  | fragment p =>
      obtain ⟨⟨out, rest⟩, called, rfl⟩ := Option.map_eq_some_iff.mp stepped
      obtain ⟨_, freed⟩ | ⟨_, middle, before, after, ipr, opened, added⟩ :=
        sound.ipReass_cases called
      · exact fun ipr member => collected ipr (freed.sublist.subset member)
      · have collects := collected.opened opened
        have others : ∀ other ∈ before ++ after, senders.Collects other := fun other member =>
          collected other (opened.others other member)
        have all {next : IpReassdata} (more : senders.Collects next) :
            ∀ other ∈ before ++ next :: after, senders.Collects other := by
          intro other member
          obtain rfl | member : other = next ∨ other ∈ before ++ after := by
            simp only [List.mem_append, List.mem_cons] at member ⊢
            tauto
          · exact more
          · exact others other member
        obtain ⟨dropped, -, rfl⟩ | ⟨next, complete, found, ⟨-, -, rfl⟩ | ⟨-, -, rfl⟩⟩ :=
          opened.addFragment_cases added
        · exact all (collects.dropped opened.named sends dropped)
        · exact all (collects.kept opened.named sends found).1
        · exact others

theorem collected_of_reaches
    (reached : reassembly.Reaches (fun _ event => senders.Sends event) IpReass.start reass) :
    senders.Collected reass ∧ Sound reass := by
  induction reached with
  | start => exact ⟨by simp [Collected, IpReass.start], IpReass.start_sound⟩
  | next _ sends stepped ih => exact ⟨ih.1.step ih.2 sends stepped, ih.2.step stepped⟩

/-- The checksum is in the bytes 10 and 11 of a header. -/
theorem bytes_chksum (iphdr : IpHdr) (chksum : UInt16) :
    { iphdr with chksum := chksum }.bytes =
      iphdr.bytes.take 10 ++ chksum.toUInt8 :: (chksum >>> 8).toUInt8 :: iphdr.bytes.drop 12 := rfl

/-- A header with its checksum is accepted. -/
theorem header_accepted (iphdr : IpHdr) (dataptr : UInt32) :
    inetChksum dataptr { iphdr with
      chksum := inetChksum 0 { iphdr with chksum := 0 }.bytes }.bytes = 0 := by
  have first : (iphdr.bytes.take 10).length = 10 := rfl
  have last : (iphdr.bytes.drop 12).length = 8 := rfl
  have place : (iphdr.bytes.take 10).length % 2 = 0 := by rw [first]
  have fits : (iphdr.bytes.take 10 ++ 0 :: 0 :: iphdr.bytes.drop 12).length < 65536 := by
    rw [List.length_append, List.length_cons, List.length_cons, first, last]
    decide
  have empty : { iphdr with chksum := 0 }.bytes =
      iphdr.bytes.take 10 ++ 0 :: 0 :: iphdr.bytes.drop 12 := bytes_chksum iphdr 0
  generalize computed : inetChksum 0 { iphdr with chksum := 0 }.bytes = chksum
  rw [empty, inetChksum_moved 0 dataptr fits] at computed
  rw [bytes_chksum]
  exact inetChksum_filled dataptr place fits computed

/-- The header of a complete datagram names it and is accepted. -/
theorem whole_header (ipr : IpReassdata) {length : Nat} (short : length + ipHlen < 65536)
    (known : ipr.datagramLen.toNat = length) :
    ipr.whole.iphdr.key = ipr.iphdr.key ∧ ipr.whole.iphdr.len.toNat = ipHlen + length ∧
      ipr.whole.iphdr.offset = 0 ∧ ∀ dataptr, inetChksum dataptr ipr.whole.iphdr.bytes = 0 := by
  refine ⟨rfl, ?_, rfl, fun dataptr => ?_⟩
  · have header : ipHlen = 20 := rfl
    simp only [IpReassdata.whole, UInt16.toNat_add, UInt16.reduceToNat, known]
    omega
  · exact header_accepted { ipr.iphdr with len := ipr.datagramLen + 20, offset := 0 } dataptr

/-- The place of a datagram with the name of the header. -/
theorem findDatagram_old (sound : Sound reass) {ipr : IpReassdata}
    (member : ipr ∈ reass.reassdatagrams) (named : ipr.iphdr.key = p.iphdr.key) (clen : Nat) :
    ∃ index, reass.findDatagram p.iphdr clen =
      some (some (index, ipr.keepHeader p.iphdr), reass) := by
  obtain ⟨index, searched⟩ : ∃ index, (reass.reassdatagrams.findIdx? fun ipr =>
      ipAddressesAndIdMatch ipr.iphdr p.iphdr) = some index := by
    apply Option.isSome_iff_exists.mp
    rw [List.findIdx?_isSome, List.any_eq_true]
    exact ⟨ipr, member, (ipAddressesAndIdMatch_iff _ _).mpr named⟩
  obtain ⟨less, found, _⟩ := List.findIdx?_eq_some_iff_getElem.mp searched
  have same := sound.unique member (List.getElem_mem less)
    (named.trans ((ipAddressesAndIdMatch_iff _ _).mp found).symm)
  refine ⟨index, ?_⟩
  rw [IpReass.findDatagram, searched]
  simp [List.getElem?_eq_getElem less, ← same]

/-- A fragment that fills the last hole joins another fragment. -/
theorem Covers.joins {ipr : IpReassdata} (covers : senders.Covers ipr p) (sent : senders.Sent p)
    (queued : ∀ q ∈ ipr.p, senders.Queued p.iphdr.key q) : Joins ipr p := by
  by_cases begins : p.iphdr.start = 0
  · exact .inl begins
  · have later : 0 < p.iprh.start.toNat := by
      apply Nat.pos_of_ne_zero
      exact fun zero => begins (UInt16.toNat_inj.mp zero)
    have inside := senders.inside sent.queued.piece
    obtain ⟨q, member, low, high⟩ := covers (p.iprh.start.toNat - 1) (by omega)
    obtain rfl | member := List.mem_cons.mp member
    · omega
    · have apart := senders.apart (queued q member).piece sent.queued.piece
      refine .inr ⟨q, member, UInt16.toNat_inj.mp ?_⟩
      show q.stop.toNat = p.iprh.start.toNat
      omega

end Senders

end NnpCamera.Network
