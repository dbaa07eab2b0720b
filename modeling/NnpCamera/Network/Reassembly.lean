/-
This file shows which datagrams the reassembly hands on when each fragment is a piece of its datagram.
-/

import NnpCamera.Library.Runs
import NnpCamera.Library.Slices
import NnpCamera.Network.IpFrag

namespace NnpCamera.Network
open Library

namespace IpReassHelper

/-- No bytes are between the fragments. -/
def Touches (iprh next : IpReassHelper) : Prop := iprh.stop.toNat = next.start.toNat

end IpReassHelper

open IpReassHelper (Touches)

theorem noHoles_iff (iprh : IpReassHelper) (rest : List IpReassHelper) :
    noHoles iprh rest = true ↔ (iprh :: rest).IsChain Touches := by
  induction rest generalizing iprh with
  | nil => simp [noHoles]
  | cons next rest ih =>
      rw [noHoles, List.isChain_cons_cons, ← ih next, Touches, UInt16.toNat_inj]
      split <;> simp_all

/-- The fragments that the walk passes end before the new fragment, and it stops at a fragment behind
it. The flag says that the passed fragments touch, and that they touch the new fragment when it is the
last one. -/
structure Inserted (iprh : IpReassHelper) (passed before after : List IpReassHelper) (valid : Bool) :
    Prop where
  ends : ∀ q ∈ before, q.start.toNat < iprh.start.toNat ∧ q.stop.toNat ≤ iprh.start.toNat
  behind : ∀ q ∈ after.head?, iprh.start.toNat < q.start.toNat
  touch : valid = true ↔ (passed ++ before).IsChain Touches ∧
    (after = [] → ∀ last ∈ (passed ++ before).getLast?, Touches last iprh)

theorem checkHole_iff {passed : List IpReassHelper} {valid : Bool} (iprh : IpReassHelper)
    (checked : valid = true ↔ passed.IsChain Touches) :
    checkHole passed.getLast? valid iprh = true ↔ (passed ++ [iprh]).IsChain Touches := by
  rw [List.isChain_append, ← checked]
  cases passed.getLast? with
  | none => simp [checkHole]
  | some last => simp [checkHole, Touches, UInt16.toNat_inj, and_comm]

theorem insertFragment_some {iprh : IpReassHelper} {passed p before after : List IpReassHelper}
    {valid left : Bool} (checked : valid = true ↔ passed.IsChain Touches)
    (found : insertFragment iprh passed.getLast? valid p = some (before, after, left)) :
    p = before ++ after ∧ Inserted iprh passed before after left := by
  induction p generalizing passed valid before with
  | nil =>
      simp only [insertFragment, Option.some.injEq, Prod.mk.injEq] at found
      obtain ⟨rfl, rfl, rfl⟩ := found
      refine ⟨rfl, by simp, by simp, ?_⟩
      rw [checkHole_iff iprh checked, List.isChain_append]
      simp
  | cons q rest ih =>
      unfold insertFragment at found
      split at found
      next less =>
        have stopped : some ([], q :: rest, valid) = some (before, after, left) := by
          split at found
          next =>
            split at found
            next => contradiction
            next => exact found
          next => exact found
        simp only [Option.some.injEq, Prod.mk.injEq] at stopped
        obtain ⟨rfl, rfl, rfl⟩ := stopped
        refine ⟨rfl, by simp, by simpa using UInt16.lt_iff_toNat_lt.mp less, ?_⟩
        simpa using checked
      next later =>
        split at found
        next => contradiction
        next other =>
          split at found
          next => contradiction
          next ended =>
            obtain ⟨⟨more, tail, flag⟩, called, same⟩ := Option.map_eq_some_iff.mp found
            simp only [Prod.mk.injEq] at same
            obtain ⟨rfl, rfl, rfl⟩ := same
            have passes : (passed ++ [q]).getLast? = some q := by simp
            obtain ⟨rfl, inserted⟩ := ih (checkHole_iff q checked) (passes ▸ called)
            refine ⟨rfl, ?_, inserted.behind, by simpa using inserted.touch⟩
            intro item member
            obtain rfl | member := List.mem_cons.mp member
            · rw [UInt16.lt_iff_toNat_lt] at later ended
              rw [← UInt16.toNat_inj] at other
              omega
            · exact inserted.ends item member

theorem empty_checked : true = true ↔ ([] : List IpReassHelper).IsChain Touches := by simp

/-- A fragment is dropped when it overlaps another one. -/
theorem insertFragment_none {iprh : IpReassHelper} {iprhPrev : Option IpReassHelper}
    {p : List IpReassHelper} {valid : Bool}
    (passed : ∀ q ∈ iprhPrev, q.stop.toNat ≤ iprh.start.toNat)
    (dropped : insertFragment iprh iprhPrev valid p = none) :
    ∃ q ∈ p, q.start.toNat = iprh.start.toNat ∨
      q.start.toNat < iprh.start.toNat ∧ iprh.start.toNat < q.stop.toNat ∨
      iprh.start.toNat < q.start.toNat ∧ q.start.toNat < iprh.stop.toNat := by
  induction p generalizing iprhPrev valid with
  | nil => simp [insertFragment] at dropped
  | cons q rest ih =>
      unfold insertFragment at dropped
      simp only [UInt16.lt_iff_toNat_lt, ← UInt16.toNat_inj] at dropped
      split at dropped
      next less =>
        cases iprhPrev with
        | none => contradiction
        | some last =>
            have ended := passed last rfl
            refine ⟨q, List.mem_cons_self, .inr (.inr ⟨less, ?_⟩)⟩
            dsimp only at dropped
            split at dropped
            next overlap => exact overlap.resolve_left (by omega)
            next => contradiction
      next later =>
        split at dropped
        next same => exact ⟨q, List.mem_cons_self, .inl same.symm⟩
        next other =>
          split at dropped
          next inside => exact ⟨q, List.mem_cons_self, .inr (.inl ⟨by omega, inside⟩)⟩
          next ended =>
            obtain ⟨item, member, overlap⟩ :=
              ih (by simpa using Nat.le_of_not_lt ended) (Option.map_eq_none_iff.mp dropped)
            exact ⟨item, List.mem_cons_of_mem _ member, overlap⟩

/-- A datagram has its addresses and its identification as its name. -/
abbrev Key := UInt32 × UInt32 × UInt16

def IpHdr.key (iphdr : IpHdr) : Key := (iphdr.src, iphdr.dest, iphdr.id)

theorem ipAddressesAndIdMatch_iff (iphdrA iphdrB : IpHdr) :
    ipAddressesAndIdMatch iphdrA iphdrB = true ↔ iphdrA.key = iphdrB.key := by
  simp [ipAddressesAndIdMatch, IpHdr.key]

/-- The payloads of the datagrams that are sent, and the places at which they are cut. Each datagram is
cut in one way. -/
structure Senders where
  payload : Key → List UInt8
  piece : Key → Nat → Nat → Prop
  short (key : Key) : (payload key).length + ipHlen < 65536
  inside {key : Key} {start stop : Nat} : piece key start stop →
    start < stop ∧ stop ≤ (payload key).length
  apart {key : Key} {start stop other last : Nat} : piece key start stop → piece key other last →
    start = other ∧ stop = last ∨ stop ≤ other ∨ last ≤ start

/-- The place and the bytes of a fragment, without its header. -/
def Fragment.iprh (p : Fragment) : IpReassHelper :=
  ⟨p.iphdr.start, p.iphdr.start + p.iphdr.dataLen, p.chain⟩

theorem noteLast_fields (ipr : IpReassdata) (fraghdr : IpHdr) :
    (ipr.noteLast fraghdr).p = ipr.p ∧ (ipr.noteLast fraghdr).iphdr = ipr.iphdr ∧
      (ipr.noteLast fraghdr).timer = ipr.timer ∧
        (ipr.noteLast fraghdr).lastfrag = (ipr.lastfrag || !fraghdr.mf) := by
  cases more : fraghdr.mf <;> simp [IpReassdata.noteLast, more]

namespace Senders
variable (senders : Senders)

/-- A queued fragment is a piece of its datagram. -/
structure Queued (key : Key) (q : IpReassHelper) : Prop where
  piece : senders.piece key q.start.toNat q.stop.toNat
  data : q.chain.flatten = ((senders.payload key).take q.stop.toNat).drop q.start.toNat

/-- A fragment is a piece of its datagram, and the last piece says that it is the last one. -/
structure Sent (p : Fragment) : Prop where
  queued : senders.Queued p.iphdr.key p.iprh
  last : p.iphdr.mf = false ↔ p.iprh.stop.toNat = (senders.payload p.iphdr.key).length

/-- The fragments of a datagram are in order. The last one is known when it is in the queue. -/
structure Collects (ipr : IpReassdata) : Prop where
  queued : ∀ q ∈ ipr.p, senders.Queued ipr.iphdr.key q
  order : ipr.p.Pairwise fun q next => q.stop.toNat ≤ next.start.toNat
  last : ipr.lastfrag = true ↔ ∃ q ∈ ipr.p, q.stop.toNat = (senders.payload ipr.iphdr.key).length
  length : ipr.lastfrag = true →
    ipr.datagramLen.toNat = (senders.payload ipr.iphdr.key).length

/-- The datagram has a fragment that ends where the new one starts, or it starts with the new one. -/
def Joins (ipr : IpReassdata) (p : Fragment) : Prop :=
  p.iphdr.start = 0 ∨ ∃ q ∈ ipr.p, q.stop = p.iphdr.start

/-- The datagram is in the queue up to the new fragment. -/
def Covers (ipr : IpReassdata) (p : Fragment) : Prop :=
  ∀ place < (senders.payload p.iphdr.key).length,
    ∃ q ∈ p.iprh :: ipr.p, q.start.toNat ≤ place ∧ place < q.stop.toNat

variable {senders} {key : Key} {ipr : IpReassdata} {p : Fragment}

theorem Queued.slice {q : IpReassHelper} (queued : senders.Queued key q) :
    Slice (senders.payload key) (fun q => q.start.toNat) (fun q => q.stop.toNat)
      (fun q => q.chain.flatten) q := by
  have inside := senders.inside queued.piece
  exact ⟨inside.1.le, inside.2, queued.data⟩

/-- A fragment that overlaps a queued one has been received before. -/
theorem Queued.same {q iprh : IpReassHelper} (queued : senders.Queued key q)
    (sent : senders.Queued key iprh) (overlaps : q.start.toNat = iprh.start.toNat ∨
      q.start.toNat < iprh.start.toNat ∧ iprh.start.toNat < q.stop.toNat ∨
      iprh.start.toNat < q.start.toNat ∧ q.start.toNat < iprh.stop.toNat) :
    q.start.toNat = iprh.start.toNat ∧ q.stop.toNat = iprh.stop.toNat := by
  have first := senders.inside queued.piece
  have second := senders.inside sent.piece
  have apart := senders.apart queued.piece sent.piece
  omega

/-- The queue with a fragment in its place, and what the walk has found out about it. -/
structure Chained (ipr : IpReassdata) (iprh : IpReassHelper) (before after : List IpReassHelper)
    (complete : Bool) : Prop where
  split : ipr.p = before ++ after
  order : (before ++ iprh :: after).Pairwise fun q next => q.stop.toNat ≤ next.start.toNat
  behind : ∀ q ∈ before, q.start.toNat < iprh.start.toNat
  complete : complete = true ↔ ipr.lastfrag = true ∧
    (∀ first ∈ (before ++ iprh :: after).head?, first.start = 0) ∧ before.IsChain Touches ∧
    (iprh :: after).IsChain Touches ∧ (after = [] → ∀ last ∈ before.getLast?, Touches last iprh)

theorem chained_some {iprh : IpReassHelper} {next : IpReassdata} {complete : Bool}
    (queued : ∀ q ∈ ipr.p, senders.Queued key q)
    (order : ipr.p.Pairwise fun q next => q.stop.toNat ≤ next.start.toNat)
    (sent : senders.Queued key iprh)
    (found : ipr.ipReassChainFragIntoDatagramAndValidate iprh = some (next, complete)) :
    ∃ before after, next = { ipr with p := before ++ iprh :: after } ∧
      Chained ipr iprh before after complete := by
  obtain ⟨⟨before, after, valid⟩, walked, same⟩ := Option.map_eq_some_iff.mp found
  simp only [Prod.mk.injEq] at same
  obtain ⟨rfl, rfl⟩ := same
  obtain ⟨split, inserted⟩ := insertFragment_some empty_checked walked
  refine ⟨before, after, rfl, split, ?_, fun q member => (inserted.ends q member).1, ?_⟩
  · rw [split, List.pairwise_append] at order
    have later : ∀ q ∈ after, iprh.stop.toNat ≤ q.start.toNat := by
      intro q member
      have piece := (queued q (split ▸ List.mem_append_right _ member)).piece
      have filled := senders.inside piece
      have apart := senders.apart sent.piece piece
      have starts : iprh.start.toNat < q.start.toNat := by
        cases after with
        | nil => contradiction
        | cons first rest =>
            have head := inserted.behind first rfl
            have inside := senders.inside (queued first (split ▸ by simp)).piece
            obtain rfl | tail := List.mem_cons.mp member
            · exact head
            · have less := List.rel_of_pairwise_cons order.2.1 tail
              omega
      omega
    rw [List.pairwise_append]
    refine ⟨order.1, order.2.1.cons later, fun q member next behind => ?_⟩
    obtain rfl | behind := List.mem_cons.mp behind
    · exact (inserted.ends q member).2
    · exact order.2.2 q member next behind
  · have flag := inserted.touch
    rw [List.nil_append] at flag
    obtain ⟨first, head⟩ : ∃ first, (before ++ iprh :: after).head? = some first := by
      cases before <;> exact ⟨_, rfl⟩
    simp only [Bool.and_eq_true, flag, noHoles_iff, head, Option.any_some, decide_eq_true_eq,
      Option.mem_some_iff, forall_eq']
    tauto

theorem chained_none {iprh : IpReassHelper} (queued : ∀ q ∈ ipr.p, senders.Queued key q)
    (sent : senders.Queued key iprh)
    (dropped : ipr.ipReassChainFragIntoDatagramAndValidate iprh = none) :
    ∃ q ∈ ipr.p, q.start.toNat = iprh.start.toNat ∧ q.stop.toNat = iprh.stop.toNat := by
  obtain ⟨q, member, overlaps⟩ := insertFragment_none (by simp) (Option.map_eq_none_iff.mp dropped)
  exact ⟨q, member, (queued q member).same sent overlaps⟩

/-- A queue from the start to the end of its datagram has the bytes of the datagram when its fragments
touch. -/
theorem queue_whole {p : List IpReassHelper} (filled : p ≠ [])
    (queued : ∀ q ∈ p, senders.Queued key q)
    (order : p.Pairwise fun q next => q.stop.toNat ≤ next.start.toNat)
    (begins : ∀ first ∈ p.head?, first.start = 0)
    (ends : ∃ q ∈ p, q.stop.toNat = (senders.payload key).length) :
    (p.flatMap IpReassHelper.chain).flatten = senders.payload key ↔ p.IsChain Touches := by
  cases p with
  | nil => contradiction
  | cons first rest =>
      have slices := fun q member => (queued q member).slice
      have last : (rest.getLastD first).stop.toNat = (senders.payload key).length := by
        obtain ⟨q, member, same⟩ := ends
        have less := stop_le_last order (fun q member => (slices q member).order) member
        have inside : (rest.getLastD first).stop.toNat ≤ _ :=
          (slices _ List.getLastD_mem_cons).inside
        omega
      have bytes : ((first :: rest).flatMap IpReassHelper.chain).flatten =
          (first :: rest).flatMap fun q => q.chain.flatten := by
        rw [List.flatMap, List.flatten_flatten, List.map_map]
        rfl
      rw [bytes]
      exact slices_whole order.isChain slices (by rw [begins first rfl]; rfl) last

/-- The fragments of a complete datagram touch when one ends where the new fragment starts. -/
theorem Chained.touch_iff {iprh : IpReassHelper} {before after : List IpReassHelper}
    (chained : Chained ipr iprh before after true)
    (queued : ∀ q ∈ before ++ iprh :: after, senders.Queued key q) :
    (before ++ iprh :: after).IsChain Touches ↔
      iprh.start = 0 ∨ ∃ q ∈ ipr.p, q.stop = iprh.start := by
  obtain ⟨_, begins, touching, behind, _⟩ := chained.complete.mp rfl
  rw [List.isChain_append]
  simp only [touching, behind, true_and, List.head?_cons, Option.mem_some_iff, forall_eq']
  obtain rfl | ⟨init, last, rfl⟩ := before.eq_nil_or_concat
  · exact iff_of_true (by simp) (.inl (begins iprh rfl))
  · have order := chained.order
    simp only [List.concat_eq_append, List.append_assoc, List.singleton_append] at order queued ⊢
    have filled := fun q member => senders.inside (queued q member).piece
    have last_filled := filled last (by simp)
    have new_filled := filled iprh (by simp)
    have less := chained.behind last (by simp)
    rw [List.pairwise_append, List.pairwise_cons, List.pairwise_cons] at order
    obtain ⟨_, ⟨last_order, new_order, _⟩, init_order⟩ := order
    have last_new := last_order iprh (by simp)
    have ends : ∀ final ∈ (init ++ [last]).getLast?, final = last := by simp
    rw [chained.split]
    constructor
    · intro touches
      refine .inr ⟨last, by simp, UInt16.toNat_inj.mp (touches last (by simp))⟩
    · rintro (zero | ⟨q, member, stops⟩) final final_last
      · rw [zero] at less
        contradiction
      · obtain rfl := ends final final_last
        have place := congrArg UInt16.toNat stops
        simp only [List.concat_eq_append, List.append_assoc, List.mem_append,
          List.mem_singleton] at member
        obtain earlier | rfl | later := member
        · have less := init_order q earlier final (by simp)
          omega
        · exact place
        · have less := new_order q later
          have inside := filled q (by simp [later])
          omega

/-- A datagram is complete when its queue and the new fragment cover it. -/
theorem Chained.covers {iprh : IpReassHelper} {before after : List IpReassHelper} {complete : Bool}
    (chained : Chained ipr iprh before after complete)
    (queued : ∀ q ∈ before ++ iprh :: after, senders.Queued key q) (last : ipr.lastfrag = true)
    (covered : ∀ place < (senders.payload key).length,
      ∃ q ∈ before ++ iprh :: after, q.start.toNat ≤ place ∧ place < q.stop.toNat) :
    complete = true := by
  have filled := fun q member => senders.inside (queued q member).piece
  obtain ⟨first, rest, whole⟩ : ∃ first rest, before ++ iprh :: after = first :: rest := by
    cases before <;> exact ⟨_, _, rfl⟩
  have order := chained.order
  rw [whole] at covered order filled
  have begins : first.start.toNat = 0 := by
    have inside := filled first List.mem_cons_self
    obtain ⟨q, member, low, _⟩ := covered 0 (by omega)
    obtain rfl | member := List.mem_cons.mp member
    · omega
    · have less := List.rel_of_pairwise_cons order member
      omega
  have touch : (before ++ iprh :: after).IsChain Touches := by
    rw [whole]
    exact covered_touch order filled fun place _ inside => covered place inside
  rw [chained.complete, whole]
  rw [List.isChain_append] at touch
  refine ⟨last, ?_, touch.1, touch.2.1, fun _ final member => touch.2.2 final member iprh rfl⟩
  rintro _ ⟨⟩
  exact UInt16.toNat_inj.mp begins

/-- The length is that of the datagram. -/
theorem Collects.noteLast_length (collects : senders.Collects ipr)
    (named : ipr.iphdr.key = p.iphdr.key) (sent : senders.Sent p)
    (last : (ipr.noteLast p.iphdr).lastfrag = true) :
    (ipr.noteLast p.iphdr).datagramLen.toNat = (senders.payload ipr.iphdr.key).length := by
  cases more : p.iphdr.mf with
  | true =>
      simp only [IpReassdata.noteLast, more, if_true] at last ⊢
      exact collects.length last
  | false =>
      simp only [IpReassdata.noteLast, more, Bool.false_eq_true, if_false]
      rw [named]
      exact sent.last.mp more

/-- The last fragment is known after a fragment of the queue has been received again. -/
theorem Collects.dropped (collects : senders.Collects ipr) (named : ipr.iphdr.key = p.iphdr.key)
    (sent : senders.Sent p)
    (dropped : (ipr.noteLast p.iphdr).ipReassChainFragIntoDatagramAndValidate p.iprh = none) :
    senders.Collects (ipr.noteLast p.iphdr) := by
  obtain ⟨same, header, _, flag⟩ := noteLast_fields ipr p.iphdr
  have queued := named ▸ collects.queued
  obtain ⟨q, member, _, ends⟩ := chained_none (same ▸ queued) sent.queued dropped
  rw [same] at member
  refine ⟨?_, ?_, ?_, header ▸ collects.noteLast_length named sent⟩
  · rw [same, header]
    exact collects.queued
  · rw [same]
    exact collects.order
  · rw [same, header, flag, Bool.or_eq_true, collects.last, Bool.not_eq_true']
    refine ⟨fun known => known.elim id fun more => ?_, .inl⟩
    exact ⟨q, member, by rw [ends, sent.last.mp more, named]⟩

/-- A queue with one more fragment. It has the bytes of its datagram when it is complete and the new
fragment joins another one. -/
theorem Collects.kept {next : IpReassdata} {complete : Bool} (collects : senders.Collects ipr)
    (named : ipr.iphdr.key = p.iphdr.key) (sent : senders.Sent p)
    (found : (ipr.noteLast p.iphdr).ipReassChainFragIntoDatagramAndValidate p.iprh =
      some (next, complete)) :
    senders.Collects next ∧ next.iphdr = ipr.iphdr ∧ next.timer = ipr.timer ∧
      next.buffers.length = ipr.buffers.length + p.chain.length ∧
      (complete = true → (next.buffers.flatten = senders.payload p.iphdr.key ↔ Joins ipr p) ∧
        next.datagramLen.toNat = (senders.payload p.iphdr.key).length) ∧
      (senders.Covers ipr p → complete = true) := by
  obtain ⟨same, header, timer, flag⟩ := noteLast_fields ipr p.iphdr
  have queued := named ▸ collects.queued
  obtain ⟨before, after, rfl, chained⟩ :=
    chained_some (same ▸ queued) (same ▸ collects.order) sent.queued found
  have split : ipr.p = before ++ after := same ▸ chained.split
  have member_iff (q : IpReassHelper) :
      q ∈ before ++ p.iprh :: after ↔ q = p.iprh ∨ q ∈ ipr.p := by
    rw [split]
    simp only [List.mem_append, List.mem_cons]
    tauto
  have all : ∀ q ∈ before ++ p.iprh :: after, senders.Queued p.iphdr.key q := by
    intro q member
    obtain rfl | member := (member_iff q).mp member
    · exact sent.queued
    · exact queued q member
  have last : (ipr.noteLast p.iphdr).lastfrag = true ↔ ∃ q ∈ before ++ p.iprh :: after,
      q.stop.toNat = (senders.payload p.iphdr.key).length := by
    rw [flag, Bool.or_eq_true, collects.last, Bool.not_eq_true', sent.last, named]
    simp only [member_iff, or_and_right, exists_or, exists_eq_left]
    exact or_comm
  refine ⟨⟨?_, chained.order, ?_, ?_⟩, header, timer, ?_, ?_, ?_⟩
  · rw [header, named]
    exact all
  · rw [header, named]
    exact last
  · rw [header]
    exact collects.noteLast_length named sent
  · simp only [IpReassdata.buffers, split, List.flatMap_append, List.flatMap_cons,
      List.length_append, Fragment.iprh]
    omega
  · rintro rfl
    obtain ⟨known, begins, _⟩ := chained.complete.mp rfl
    refine ⟨?_, named ▸ collects.noteLast_length named sent known⟩
    rw [IpReassdata.buffers, queue_whole (by simp) all chained.order begins (last.mp known),
      chained.touch_iff all, same]
    exact Iff.rfl
  · intro covers
    have filled := senders.inside sent.queued.piece
    obtain ⟨q, member, low, high⟩ := covers ((senders.payload p.iphdr.key).length - 1) (by omega)
    have known : q ∈ before ++ p.iprh :: after := (member_iff q).mpr (List.mem_cons.mp member)
    have inside := senders.inside (all q known).piece
    refine chained.covers all (last.mpr ⟨q, known, by omega⟩) fun place less => ?_
    obtain ⟨q, member, inside⟩ := covers place less
    exact ⟨q, (member_iff q).mpr (List.mem_cons.mp member), inside⟩

end Senders

end NnpCamera.Network
