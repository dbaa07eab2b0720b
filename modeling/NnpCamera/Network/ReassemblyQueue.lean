/-
This file shows that the queue of the reassembly stays within its bounds in each run, whatever fragments
arrive.
-/

import NnpCamera.Network.Reassembly
import Mathlib.Data.List.Flatten
import Mathlib.Data.List.Induction
import Mathlib.Data.List.Nodup

namespace NnpCamera.Network
open Library

/-- A fragment arrives, or the timer runs. -/
inductive IpEvent where
  | fragment (p : Fragment)
  | tmr

/-- The queue after each event. -/
def reassembly : System IpReass IpEvent where
  step reass
    | .fragment p => (reass.ipReass p).map Prod.snd
    | .tmr => some reass.ipReassTmr

namespace IpReass

/-- The queue before the first fragment. -/
def start : IpReass := ⟨[], 0⟩

/-- The datagrams have different names and one fragment at least, and the newer ones have more time. -/
structure Listed (datagrams : List IpReassdata) : Prop where
  apart : datagrams.Pairwise fun ipr other => ipr.iphdr.key ≠ other.iphdr.key
  aged : datagrams.Pairwise fun newer older => older.timer ≤ newer.timer
  fresh : ∀ ipr ∈ datagrams, ipr.timer ≤ ipReassMaxage

/-- The buffers are counted, and no more of them are queued than the code allows. -/
structure Sound (reass : IpReass) : Prop where
  listed : Listed reass.reassdatagrams
  filled : ∀ ipr ∈ reass.reassdatagrams, ipr.buffers ≠ []
  counted : reass.pbufcount = (reass.reassdatagrams.flatMap IpReassdata.buffers).length
  room : reass.pbufcount ≤ ipReassMaxPbufs
  few : reass.reassdatagrams.length ≤ mempNumReassdata

variable {reass rest : IpReass} {fraghdr : IpHdr}

theorem Listed.sublist {datagrams fewer : List IpReassdata} (listed : Listed datagrams)
    (sublist : fewer.Sublist datagrams) : Listed fewer :=
  ⟨listed.apart.sublist sublist, listed.aged.sublist sublist, fun ipr member =>
    listed.fresh ipr (sublist.subset member)⟩

/-- A datagram is replaced by one with its name and its timer. -/
theorem Listed.replace {before after : List IpReassdata} {ipr next : IpReassdata}
    (listed : Listed (before ++ ipr :: after)) (named : next.iphdr.key = ipr.iphdr.key)
    (timer : next.timer = ipr.timer) : Listed (before ++ next :: after) := by
  obtain ⟨apart, aged, fresh⟩ := listed
  refine ⟨?_, ?_, ?_⟩
  · rw [List.pairwise_append, List.pairwise_cons] at apart ⊢
    simpa [named] using apart
  · rw [List.pairwise_append, List.pairwise_cons] at aged ⊢
    simpa [timer] using aged
  · intro other member
    obtain member | rfl | member : other ∈ before ∨ other = next ∨ other ∈ after := by simpa using member
    · exact fresh other (by simp [member])
    · exact timer ▸ fresh ipr (by simp)
    · exact fresh other (by simp [member])

/-- The place of a datagram splits the list. -/
theorem split_at {datagrams : List IpReassdata} {index : Nat} {ipr : IpReassdata}
    (found : datagrams[index]? = some ipr) :
    ∃ before after, datagrams = before ++ ipr :: after ∧ before.length = index ∧
      datagrams.eraseIdx index = before ++ after ∧
      ∀ next, datagrams.set index next = before ++ next :: after := by
  obtain ⟨less, rfl⟩ := List.getElem?_eq_some_iff.mp found
  refine ⟨datagrams.take index, datagrams.drop (index + 1), ?_, ?_, ?_, ?_⟩
  · rw [List.getElem_cons_drop, List.take_append_drop]
  · rw [List.length_take, Nat.min_eq_left less.le]
  · exact List.eraseIdx_eq_take_drop_succ ..
  · exact fun next => List.set_eq_take_append_cons_drop .. |>.trans (if_pos less)

/-- Other datagrams than that of the header have been freed. -/
structure Freed (fraghdr : IpHdr) (reass rest : IpReass) : Prop where
  sublist : rest.reassdatagrams.Sublist reass.reassdatagrams
  counted : rest.pbufcount = (rest.reassdatagrams.flatMap IpReassdata.buffers).length
  kept : ∀ ipr ∈ reass.reassdatagrams, ipr.iphdr.key = fraghdr.key → ipr ∈ rest.reassdatagrams

theorem Freed.trans {middle : IpReass} (first : Freed fraghdr reass middle)
    (second : Freed fraghdr middle rest) : Freed fraghdr reass rest :=
  ⟨second.sublist.trans first.sublist, second.counted, fun ipr member named =>
    second.kept ipr (first.kept ipr member named) named⟩

theorem Sound.fewer (sound : Sound reass) (freed : Freed fraghdr reass rest) :
    rest.pbufcount ≤ reass.pbufcount := by
  rw [freed.counted, sound.counted]
  exact (freed.sublist.flatMap _).length_le

theorem Sound.freed (sound : Sound reass) (freed : Freed fraghdr reass rest) : Sound rest :=
  ⟨sound.listed.sublist freed.sublist, fun ipr member =>
    sound.filled ipr (freed.sublist.subset member), freed.counted,
    (sound.fewer freed).trans sound.room, freed.sublist.length_le.trans sound.few⟩

/-- The oldest datagram behind one more datagram. -/
theorem oldestDatagram_concat (datagrams : List IpReassdata) (ipr : IpReassdata) (count : Nat) :
    (⟨datagrams ++ [ipr], count⟩ : IpReass).oldestDatagram fraghdr =
      older fraghdr ((⟨datagrams, count⟩ : IpReass).oldestDatagram fraghdr)
        (ipr, datagrams.length) := by
  simp only [oldestDatagram, List.zipIdx_append, List.foldl_append, List.zipIdx_singleton,
    List.foldl_cons, List.foldl_nil, Nat.zero_add]

theorem older_some {oldest : Option (IpReassdata × Nat)} {r found : IpReassdata × Nat}
    (same : older fraghdr oldest r = some found) :
    oldest = some found ∨ r = found ∧ r.1.iphdr.key ≠ fraghdr.key := by
  unfold older at same
  split at same
  next => exact .inl same
  next other =>
    have key : r.1.iphdr.key ≠ fraghdr.key := fun equal =>
      other ((ipAddressesAndIdMatch_iff _ _).mpr equal)
    split at same
    next => exact .inr ⟨Option.some.inj same, key⟩
    next =>
      split at same
      next => exact .inr ⟨Option.some.inj same, key⟩
      next => exact .inl same

/-- The oldest datagram is in the list, and it is not that of the header. -/
theorem oldestDatagram_some {datagrams : List IpReassdata} {count index : Nat} {ipr : IpReassdata}
    (found : (⟨datagrams, count⟩ : IpReass).oldestDatagram fraghdr = some (ipr, index)) :
    datagrams[index]? = some ipr ∧ ipr.iphdr.key ≠ fraghdr.key := by
  induction datagrams using List.reverseRecOn with
  | nil => contradiction
  | append_singleton datagrams last ih =>
      rw [oldestDatagram_concat] at found
      obtain earlier | ⟨⟨rfl, rfl⟩, other⟩ := older_some found
      · obtain ⟨place, other⟩ := ih earlier
        exact ⟨List.getElem?_append_left (List.getElem?_eq_some_iff.mp place).1 ▸ place, other⟩
      · exact ⟨by simp, other⟩

/-- One datagram is freed. -/
theorem freeComplete_freed {index freed : Nat} {ipr : IpReassdata} {prev : Option Nat}
    (counted : reass.pbufcount = (reass.reassdatagrams.flatMap IpReassdata.buffers).length)
    (found : reass.reassdatagrams[index]? = some ipr) (other : ipr.iphdr.key ≠ fraghdr.key)
    (called : reass.ipReassFreeCompleteDatagram index prev = some (freed, rest)) :
    Freed fraghdr reass rest ∧ freed = ipr.buffers.length := by
  obtain ⟨datagrams, dequeued, same⟩ := Option.map_eq_some_iff.mp called
  simp only [found, Option.map_some, Option.getD_some, Prod.mk.injEq] at same
  obtain ⟨rfl, rfl⟩ := same
  unfold ipReassDequeueDatagram at dequeued
  split at dequeued
  next =>
    obtain rfl := Option.some.inj dequeued
    obtain ⟨before, after, whole, _, erased, _⟩ := split_at found
    refine ⟨⟨List.eraseIdx_sublist .., ?_, ?_⟩, rfl⟩
    · rw [erased, counted, whole]
      simp only [List.flatMap_append, List.flatMap_cons, List.length_append]
      omega
    · intro named member same
      rw [whole] at member
      rw [erased]
      obtain first | rfl | last : named ∈ before ∨ named = ipr ∨ named ∈ after := by simpa using member
      · exact List.mem_append_left _ first
      · exact absurd same other
      · exact List.mem_append_right _ last
  next => contradiction

theorem removeOldest_freed {pbufsNeeded passes already freed : Nat}
    (counted : reass.pbufcount = (reass.reassdatagrams.flatMap IpReassdata.buffers).length)
    (called : removeOldest fraghdr pbufsNeeded passes already reass = some (freed, rest)) :
    Freed fraghdr reass rest := by
  have unchanged : Freed fraghdr reass reass := ⟨.refl _, counted, fun _ member _ => member⟩
  induction passes generalizing already reass with
  | zero =>
      obtain ⟨-, rfl⟩ := Prod.mk.inj (Option.some.inj called)
      exact unchanged
  | succ passes ih =>
      unfold removeOldest at called
      split at called
      next =>
        obtain ⟨-, rfl⟩ := Prod.mk.inj (Option.some.inj called)
        exact unchanged
      next ipr oldest found =>
        obtain ⟨place, other⟩ := oldestDatagram_some found
        obtain ⟨⟨current, middle⟩, removed, more⟩ := Option.bind_eq_some_iff.mp called
        obtain ⟨first, _⟩ := freeComplete_freed counted place other removed
        dsimp only at more
        split at more
        next => exact first.trans (ih first.counted more ⟨.refl _, first.counted, fun _ m _ => m⟩)
        next =>
          obtain ⟨-, rfl⟩ := Prod.mk.inj (Option.some.inj more)
          exact first

/-- The fragment is about to be added to a datagram. The datagram is an old one, or it is new and
empty. -/
structure Opened (reass : IpReass) (p : Fragment) (middle : IpReass)
    (before after : List IpReassdata) (ipr : IpReassdata) : Prop where
  stored : ∃ old, middle.reassdatagrams = before ++ old :: after
  listed : Listed (before ++ ipr :: after)
  filled : ∀ other ∈ before ++ after, other.buffers ≠ []
  counted : middle.pbufcount = ((before ++ ipr :: after).flatMap IpReassdata.buffers).length
  room : middle.pbufcount + p.chain.length ≤ ipReassMaxPbufs
  few : (before ++ ipr :: after).length ≤ mempNumReassdata
  named : ipr.iphdr.key = p.iphdr.key
  others : ∀ other ∈ before ++ after, other ∈ reass.reassdatagrams
  origin : (∃ old ∈ reass.reassdatagrams, old.iphdr.key = p.iphdr.key ∧
      ipr = old.keepHeader p.iphdr) ∨
    (∀ old ∈ reass.reassdatagrams, old.iphdr.key ≠ p.iphdr.key) ∧
      ipr = ⟨[], p.iphdr, 0, false, ipReassMaxage⟩

theorem keepHeader_fields (ipr : IpReassdata) {fraghdr : IpHdr}
    (named : ipr.iphdr.key = fraghdr.key) :
    (ipr.keepHeader fraghdr).p = ipr.p ∧ (ipr.keepHeader fraghdr).iphdr.key = ipr.iphdr.key ∧
      (ipr.keepHeader fraghdr).timer = ipr.timer ∧
      (ipr.keepHeader fraghdr).lastfrag = ipr.lastfrag ∧
      (ipr.keepHeader fraghdr).datagramLen = ipr.datagramLen := by
  unfold IpReassdata.keepHeader
  split <;> simp [named]

theorem Opened.freed {middle : IpReass} {p : Fragment} {before after : List IpReassdata}
    {ipr : IpReassdata} (freed : Freed p.iphdr reass rest)
    (opened : Opened rest p middle before after ipr) : Opened reass p middle before after ipr := by
  refine { opened with others := ?_, origin := ?_ }
  · exact fun other member => freed.sublist.subset (opened.others other member)
  · obtain ⟨old, member, known⟩ | ⟨none, new⟩ := opened.origin
    · exact .inl ⟨old, freed.sublist.subset member, known⟩
    · exact .inr ⟨fun old member named => none old (freed.kept old member named) named, new⟩

/-- A datagram is known by its name. -/
theorem Sound.unique (sound : Sound reass) {ipr other : IpReassdata}
    (member : ipr ∈ reass.reassdatagrams) (known : other ∈ reass.reassdatagrams)
    (named : ipr.iphdr.key = other.iphdr.key) : ipr = other :=
  List.inj_on_of_nodup_map (List.pairwise_map.mpr sound.listed.apart) member known named

theorem Freed.refl (counted : reass.pbufcount =
    (reass.reassdatagrams.flatMap IpReassdata.buffers).length) : Freed fraghdr reass reass :=
  ⟨.refl _, counted, fun _ member _ => member⟩

/-- There is room after other datagrams have been freed. -/
theorem Sound.makeRoom (sound : Sound reass) {clen : Nat} {room : Bool}
    (called : reass.makeRoom fraghdr clen = some (room, rest)) :
    Freed fraghdr reass rest ∧ (room = true → rest.pbufcount + clen ≤ ipReassMaxPbufs) := by
  unfold IpReass.makeRoom at called
  split at called
  next enough =>
    obtain ⟨rfl, rfl⟩ := Prod.mk.inj (Option.some.inj called)
    exact ⟨.refl sound.counted, fun _ => enough⟩
  next =>
    obtain ⟨⟨freed, after⟩, removed, same⟩ := Option.map_eq_some_iff.mp called
    obtain ⟨rfl, rfl⟩ := Prod.mk.inj same
    exact ⟨removeOldest_freed sound.counted removed, fun enough => (of_decide_eq_true enough).2⟩

/-- A new datagram is begun. -/
theorem Sound.begin (sound : Sound reass) {p : Fragment}
    (room : reass.pbufcount + p.chain.length ≤ ipReassMaxPbufs)
    (less : reass.reassdatagrams.length < mempNumReassdata)
    (none : ∀ old ∈ reass.reassdatagrams, old.iphdr.key ≠ p.iphdr.key) :
    Opened reass p ⟨⟨[], p.iphdr, 0, false, ipReassMaxage⟩ :: reass.reassdatagrams, reass.pbufcount⟩
      [] reass.reassdatagrams ⟨[], p.iphdr, 0, false, ipReassMaxage⟩ := by
  refine ⟨⟨_, rfl⟩, ⟨?_, ?_, ?_⟩, sound.filled, ?_, room, less, rfl, fun _ member => member,
    .inr ⟨none, rfl⟩⟩
  · exact sound.listed.apart.cons fun old member same => none old member same.symm
  · exact sound.listed.aged.cons sound.listed.fresh
  · intro ipr member
    obtain rfl | member := List.mem_cons.mp member
    · exact Nat.le_refl _
    · exact sound.listed.fresh ipr member
  · simpa [IpReassdata.buffers] using sound.counted

theorem Sound.findDatagram (sound : Sound reass) {p : Fragment}
    {found : Option (Nat × IpReassdata)} {middle : IpReass}
    (room : reass.pbufcount + p.chain.length ≤ ipReassMaxPbufs)
    (called : reass.findDatagram p.iphdr p.chain.length = some (found, middle)) :
    found = none ∧ Freed p.iphdr reass middle ∨ ∃ before after ipr,
      found = some (before.length, ipr) ∧ Opened reass p middle before after ipr := by
  unfold IpReass.findDatagram at called
  split at called
  next index searched =>
    obtain ⟨less, named, _⟩ := List.findIdx?_eq_some_iff_getElem.mp searched
    obtain ⟨rfl, rfl⟩ := Prod.mk.inj (Option.some.inj called)
    obtain ⟨old, place, key⟩ : ∃ old, reass.reassdatagrams[index]? = some old ∧
        old.iphdr.key = p.iphdr.key :=
      ⟨_, List.getElem?_eq_getElem less, (ipAddressesAndIdMatch_iff _ _).mp named⟩
    obtain ⟨same, header, timer, _⟩ := keepHeader_fields old key
    obtain ⟨before, after, whole, rfl, _⟩ := split_at place
    have member (other : IpReassdata) : other ∈ before ++ after → other ∈ reass.reassdatagrams := by
      rw [whole]
      simp only [List.mem_append, List.mem_cons]
      tauto
    refine .inr ⟨before, after, old.keepHeader p.iphdr, by rw [place]; rfl, ⟨old, whole⟩,
      (whole ▸ sound.listed).replace header timer, fun other inside =>
        sound.filled other (member other inside), ?_, room, ?_, header.trans key, member,
      .inl ⟨old, List.mem_of_getElem? place, key, rfl⟩⟩
    · simp only [sound.counted, whole, List.flatMap_append, List.flatMap_cons, IpReassdata.buffers,
        same]
    · simpa [whole] using sound.few
  next searched =>
    have none : ∀ old ∈ reass.reassdatagrams, old.iphdr.key ≠ p.iphdr.key := by
      intro old member named
      have other := List.findIdx?_eq_none_iff.mp searched old member
      exact Bool.eq_false_iff.mp other ((ipAddressesAndIdMatch_iff _ _).mpr named)
    obtain ⟨⟨begun, next⟩, enqueued, same⟩ := Option.map_eq_some_iff.mp called
    obtain ⟨rfl, rfl⟩ := Prod.mk.inj same
    unfold ipReassEnqueueNewDatagram at enqueued
    dsimp only at enqueued
    split at enqueued
    next less =>
      obtain ⟨rfl, rfl⟩ := Prod.mk.inj (Option.some.inj enqueued)
      exact .inr ⟨_, _, _, rfl, sound.begin room less none⟩
    next =>
      obtain ⟨⟨freed, fewer⟩, removed, same⟩ := Option.map_eq_some_iff.mp enqueued
      have first := removeOldest_freed sound.counted removed
      dsimp only at same
      split at same
      next enough =>
        obtain ⟨rfl, rfl⟩ := Prod.mk.inj same
        have fits := (Nat.add_le_add_right (sound.fewer first) _).trans room
        have begins := (sound.freed first).begin fits enough.2 fun old member =>
          none old (first.sublist.subset member)
        exact .inr ⟨_, _, _, rfl, begins.freed first⟩
      next =>
        obtain ⟨rfl, rfl⟩ := Prod.mk.inj same
        exact .inl ⟨rfl, first⟩

/-- A fragment is dropped, or it is added to a datagram. -/
theorem Sound.ipReass_cases (sound : Sound reass) {p : Fragment} {out : Option Datagram}
    (called : reass.ipReass p = some (out, rest)) :
    out = none ∧ Freed p.iphdr reass rest ∨
      4 * p.iphdr.hl = ipHlen ∧ ∃ middle before after ipr,
        Opened reass p middle before after ipr ∧
        middle.addFragment before.length ipr p = (out, rest) := by
  unfold ipReass at called
  split at called
  next =>
    obtain ⟨rfl, rfl⟩ := Prod.mk.inj (Option.some.inj called)
    exact .inl ⟨rfl, .refl sound.counted⟩
  next plain =>
    obtain ⟨⟨room, roomy⟩, made, called⟩ := Option.bind_eq_some_iff.mp called
    obtain ⟨freed, enough⟩ := sound.makeRoom made
    dsimp only at called
    split at called
    next yes =>
      obtain ⟨⟨found, middle⟩, searched, same⟩ := Option.map_eq_some_iff.mp called
      obtain ⟨rfl, more⟩ | ⟨before, after, ipr, rfl, opened⟩ :=
        (sound.freed freed).findDatagram (enough yes) searched
      · obtain ⟨rfl, rfl⟩ := Prod.mk.inj same
        exact .inl ⟨rfl, freed.trans more⟩
      · exact .inr ⟨not_not.mp plain, middle, before, after, ipr, opened.freed freed, same⟩
    next =>
      obtain ⟨rfl, rfl⟩ := Prod.mk.inj (Option.some.inj called)
      exact .inl ⟨rfl, freed⟩

/-- A fragment adds its buffers. -/
theorem chain_fields {ipr next : IpReassdata} {iprh : IpReassHelper} {complete : Bool}
    (found : ipr.ipReassChainFragIntoDatagramAndValidate iprh = some (next, complete)) :
    next.iphdr = ipr.iphdr ∧ next.timer = ipr.timer ∧
      next.buffers.length = ipr.buffers.length + iprh.chain.length := by
  obtain ⟨⟨before, after, valid⟩, walked, same⟩ := Option.map_eq_some_iff.mp found
  obtain ⟨rfl, -⟩ := Prod.mk.inj same
  obtain ⟨split, _⟩ := insertFragment_some empty_checked walked
  refine ⟨rfl, rfl, ?_⟩
  simp only [IpReassdata.buffers, split, List.flatMap_append, List.flatMap_cons, List.length_append]
  omega

/-- A new datagram keeps its first fragment. -/
theorem chain_first {ipr : IpReassdata} {iprh : IpReassHelper}
    (dropped : ipr.ipReassChainFragIntoDatagramAndValidate iprh = none) : ipr.p ≠ [] := by
  obtain ⟨q, member, _⟩ := insertFragment_none (by simp) (Option.map_eq_none_iff.mp dropped)
  exact List.ne_nil_of_mem member

variable {p : Fragment} {middle : IpReass} {before after : List IpReassdata} {ipr : IpReassdata}

/-- Each way in which a fragment is added. -/
theorem Opened.addFragment_cases (opened : Opened reass p middle before after ipr)
    {out : Option Datagram} (added : middle.addFragment before.length ipr p = (out, rest)) :
    (ipr.noteLast p.iphdr).ipReassChainFragIntoDatagramAndValidate p.iprh = none ∧ out = none ∧
        rest = ⟨before ++ ipr.noteLast p.iphdr :: after, middle.pbufcount⟩ ∨
      ∃ next complete, (ipr.noteLast p.iphdr).ipReassChainFragIntoDatagramAndValidate p.iprh =
          some (next, complete) ∧
        (complete = false ∧ out = none ∧
            rest = ⟨before ++ next :: after, middle.pbufcount + p.chain.length⟩ ∨
          complete = true ∧ out = some next.whole ∧
            rest = ⟨before ++ after,
              middle.pbufcount + p.chain.length - next.buffers.length⟩) := by
  obtain ⟨old, whole⟩ := opened.stored
  have stored (next : IpReassdata) :
      middle.reassdatagrams.set before.length next = before ++ next :: after := by
    simp [whole]
  have erased : middle.reassdatagrams.eraseIdx before.length = before ++ after := by
    simp [whole, List.eraseIdx_append_of_length_le]
  unfold addFragment at added
  dsimp only at added
  rw [show (⟨p.iphdr.start, p.iphdr.start + p.iphdr.dataLen, p.chain⟩ : IpReassHelper) = p.iprh
    from rfl] at added
  split at added
  next dropped =>
    obtain ⟨rfl, rfl⟩ := Prod.mk.inj added
    exact .inl ⟨dropped, rfl, by rw [stored]⟩
  next next complete found =>
    refine .inr ⟨next, complete, found, ?_⟩
    cases complete with
    | false =>
        obtain ⟨rfl, rfl⟩ := Prod.mk.inj added
        exact .inl ⟨rfl, rfl, by rw [stored]⟩
    | true =>
        obtain ⟨rfl, rfl⟩ := Prod.mk.inj added
        exact .inr ⟨rfl, rfl, by rw [erased]⟩

/-- The queue is sound after the fragment. -/
theorem Opened.sound (opened : Opened reass p middle before after ipr) (sound : Sound reass)
    {out : Option Datagram} (added : middle.addFragment before.length ipr p = (out, rest)) :
    Sound rest := by
  obtain ⟨same, header, timer, _⟩ := noteLast_fields ipr p.iphdr
  have room := opened.room
  have some_buffer := p.filled
  have count := opened.counted
  have filled_all {next : IpReassdata} (filled : next.buffers ≠ []) :
      ∀ other ∈ before ++ next :: after, other.buffers ≠ [] := by
    intro other member
    obtain rfl | member : other = next ∨ other ∈ before ++ after := by
      simp only [List.mem_append, List.mem_cons] at member ⊢
      tauto
    · exact filled
    · exact opened.filled other member
  have few := opened.few
  simp only [List.length_append, List.length_cons, List.flatMap_append, List.flatMap_cons] at few count
  obtain ⟨dropped, -, rfl⟩ | ⟨next, complete, found, ⟨-, -, rfl⟩ | ⟨-, -, rfl⟩⟩ :=
    opened.addFragment_cases added
  · have buffers : (ipr.noteLast p.iphdr).buffers = ipr.buffers := by
      rw [IpReassdata.buffers, same, IpReassdata.buffers]
    have old : ipr.buffers ≠ [] := by
      obtain ⟨old, member, named, rfl⟩ | ⟨_, rfl⟩ := opened.origin
      · rw [IpReassdata.buffers, (keepHeader_fields old named).1]
        exact sound.filled old member
      · exact absurd rfl (same ▸ chain_first dropped)
    refine ⟨opened.listed.replace (by rw [header]) timer, filled_all (buffers ▸ old), ?_, ?_, ?_⟩
    · simpa [buffers] using count
    · exact Nat.le_of_add_right_le room
    · simpa using few
  · obtain ⟨same_header, same_timer, buffers⟩ := chain_fields found
    have filled : next.buffers ≠ [] := by
      apply List.ne_nil_of_length_pos
      rw [buffers]
      exact Nat.lt_of_lt_of_le some_buffer (Nat.le_add_left ..)
    have total : next.buffers.length = ipr.buffers.length + p.chain.length := by
      rw [buffers, IpReassdata.buffers, same]
      rfl
    refine ⟨opened.listed.replace (by rw [same_header, header]) (same_timer.trans timer),
      filled_all filled, ?_, room, ?_⟩
    · simp only [List.flatMap_append, List.flatMap_cons, List.length_append]
      omega
    · simpa using few
  · obtain ⟨_, _, buffers⟩ := chain_fields found
    have total : next.buffers.length = ipr.buffers.length + p.chain.length := by
      rw [buffers, IpReassdata.buffers, same]
      rfl
    refine ⟨opened.listed.sublist ?_, opened.filled, ?_, (Nat.sub_le ..).trans room, ?_⟩
    · exact (List.Sublist.refl before).append (List.sublist_cons_self ..)
    · simp only [List.flatMap_append, List.length_append] at count ⊢
      omega
    · rw [List.length_append]
      omega

/-- The buffers are those of the datagrams that stay and those of the others. -/
theorem buffers_filter (datagrams : List IpReassdata) :
    (datagrams.flatMap IpReassdata.buffers).length =
      ((datagrams.filter fun r => 0 < r.timer).flatMap IpReassdata.buffers).length +
        ((datagrams.filter fun r => r.timer = 0).flatMap IpReassdata.buffers).length := by
  induction datagrams with
  | nil => rfl
  | cons r rest ih =>
      by_cases none : r.timer = 0
      · simp [none, ih]
        omega
      · simp [none, Nat.pos_of_ne_zero none, ih]
        omega

/-- The queue is sound after the timer. -/
theorem Sound.tmr (sound : Sound reass) : Sound reass.ipReassTmr := by
  have sublist : (reass.reassdatagrams.filter fun r => 0 < r.timer).Sublist reass.reassdatagrams :=
    List.filter_sublist
  have listed := sound.listed.sublist sublist
  have parts := buffers_filter reass.reassdatagrams
  have count := sound.counted
  have same : (reass.ipReassTmr.reassdatagrams.flatMap IpReassdata.buffers).length =
      ((reass.reassdatagrams.filter fun r => 0 < r.timer).flatMap IpReassdata.buffers).length := by
    rw [ipReassTmr, List.flatMap_map]
    rfl
  refine ⟨⟨?_, ?_, ?_⟩, ?_, ?_, (Nat.sub_le ..).trans sound.room, ?_⟩
  · exact List.pairwise_map.mpr listed.apart
  · exact List.pairwise_map.mpr (listed.aged.imp fun less => Nat.sub_le_sub_right less 1)
  · intro ipr member
    obtain ⟨old, known, rfl⟩ := List.mem_map.mp member
    exact (Nat.sub_le ..).trans (listed.fresh old known)
  · intro ipr member
    obtain ⟨old, known, rfl⟩ := List.mem_map.mp member
    exact sound.filled old (sublist.subset known)
  · rw [same]
    simp only [ipReassTmr]
    omega
  · rw [ipReassTmr, List.length_map]
    exact sublist.length_le.trans sound.few

/-- The queue is sound after each event. -/
theorem Sound.step (sound : Sound reass) {event : IpEvent}
    (stepped : reassembly.step reass event = some rest) : Sound rest := by
  cases event with
  | tmr =>
      obtain rfl := Option.some.inj stepped
      exact sound.tmr
  | fragment p =>
      obtain ⟨⟨out, rest⟩, called, rfl⟩ := Option.map_eq_some_iff.mp stepped
      obtain ⟨_, freed⟩ | ⟨_, middle, first, last, ipr, opened, added⟩ := sound.ipReass_cases called
      · exact sound.freed freed
      · exact opened.sound sound added

theorem start_sound : Sound start :=
  ⟨⟨.nil, .nil, by simp [start]⟩, by simp [start], rfl, by decide, by decide⟩

theorem sound_of_reachable (reached : reassembly.Reachable start reass) : Sound reass :=
  reached.invariant start_sound fun _ _ _ sound _ stepped => sound.step stepped

/-- The last datagram is the oldest one, unless it is that of the header. -/
theorem oldestDatagram_last {init : List IpReassdata} {last : IpReassdata} {count : Nat}
    (aged : (init ++ [last]).Pairwise fun newer older => older.timer ≤ newer.timer)
    (other : last.iphdr.key ≠ fraghdr.key) :
    (⟨init ++ [last], count⟩ : IpReass).oldestDatagram fraghdr = some (last, init.length) := by
  have unmatched : ¬ipAddressesAndIdMatch last.iphdr fraghdr = true := fun found =>
    other ((ipAddressesAndIdMatch_iff _ _).mp found)
  rw [oldestDatagram_concat]
  unfold older
  rw [if_neg unmatched]
  split
  next => rfl
  next before found =>
    obtain ⟨ipr, index⟩ := before
    have member := List.mem_of_getElem? (oldestDatagram_some found).1
    rw [List.pairwise_append] at aged
    exact if_pos (aged.2.2 ipr member last (List.mem_singleton_self _))

theorem freeComplete_none {index : Nat} {prev : Option Nat} :
    reass.ipReassFreeCompleteDatagram index prev = none ↔
      ¬(index = 0 ∨ prev.map (· + 1) = some index) := by
  rw [ipReassFreeCompleteDatagram, Option.map_eq_none_iff, ipReassDequeueDatagram]
  split <;> simp_all

/-- One pass is enough for one buffer. -/
theorem Sound.removeOldest_pass (sound : Sound reass) {oldest passes : Nat} {ipr : IpReassdata}
    (found : reass.oldestDatagram fraghdr = some (ipr, oldest)) :
    removeOldest fraghdr 1 (passes + 1) 0 reass = none ↔
      ¬(oldest = 0 ∨ reass.prevDatagram.map (· + 1) = some oldest) := by
  obtain ⟨place, other⟩ := oldestDatagram_some found
  have buffers := List.length_pos_of_ne_nil (sound.filled ipr (List.mem_of_getElem? place))
  rw [← freeComplete_none]
  unfold removeOldest
  simp only [found]
  cases freed : reass.ipReassFreeCompleteDatagram oldest reass.prevDatagram with
  | none => simp
  | some result =>
      obtain ⟨_, same⟩ := freeComplete_freed sound.counted place other freed
      have enough : result.1 ≠ 0 := by omega
      simp [enough]

/-- The oldest datagram is freed through the link before the last one. That is another link when the
last datagram is that of the header and two others are before it. -/
theorem Sound.removeOldest_none (sound : Sound reass) :
    reass.ipReassRemoveOldestDatagram fraghdr 1 = none ↔ 3 ≤ reass.reassdatagrams.length ∧
      ∃ last ∈ reass.reassdatagrams.getLast?, last.iphdr.key = fraghdr.key := by
  obtain ⟨datagrams, count⟩ := reass
  have listed := sound.listed
  obtain rfl | ⟨init, last, rfl⟩ := datagrams.eq_nil_or_concat'
  · simp [ipReassRemoveOldestDatagram, removeOldest]
  · simp only [ipReassRemoveOldestDatagram, List.length_append, List.length_singleton,
      List.getLast?_append_cons, List.getLast?_singleton, Option.mem_some_iff, exists_eq_left']
    by_cases named : last.iphdr.key = fraghdr.key
    · have passed (init : List IpReassdata) :
          (⟨init ++ [last], count⟩ : IpReass).oldestDatagram fraghdr =
            (⟨init, count⟩ : IpReass).oldestDatagram fraghdr := by
        rw [oldestDatagram_concat]
        unfold older
        exact if_pos ((ipAddressesAndIdMatch_iff _ _).mpr named)
      obtain rfl | ⟨before, first, rfl⟩ := init.eq_nil_or_concat'
      · have none : (⟨[last], count⟩ : IpReass).oldestDatagram fraghdr = none := passed []
        simp [removeOldest, none]
      · have apart : first.iphdr.key ≠ fraghdr.key := by
          have different := listed.apart
          simp only [List.pairwise_append] at different
          exact named ▸ different.2.2 first (by simp) last (by simp)
        have found := (passed _).trans (oldestDatagram_last
          (listed.aged.sublist (List.sublist_append_left ..)) apart)
        have links : (⟨before ++ [first] ++ [last], count⟩ : IpReass).prevDatagram =
            some before.length := by simp [prevDatagram]
        rw [sound.removeOldest_pass found, links, Option.map_some, Option.some.injEq]
        simp only [named, and_true, List.length_append, List.length_singleton]
        omega
    · have found : (⟨init ++ [last], count⟩ : IpReass).oldestDatagram fraghdr = _ :=
        oldestDatagram_last listed.aged named
      rw [sound.removeOldest_pass found]
      simp only [named, and_false, iff_false, not_not]
      cases init with
      | nil => exact .inl rfl
      | cons first rest => exact .inr (by simp [prevDatagram])

/-- A new datagram never breaks the list. -/
theorem Sound.findDatagram_some (sound : Sound reass) :
    reass.findDatagram fraghdr 1 ≠ none := by
  unfold IpReass.findDatagram
  split
  next => simp
  next searched =>
    rw [ne_eq, Option.map_eq_none_iff]
    unfold ipReassEnqueueNewDatagram
    dsimp only
    split
    next => simp
    next =>
      rw [Option.map_eq_none_iff, sound.removeOldest_none]
      rintro ⟨_, last, member, named⟩
      have other := List.findIdx?_eq_none_iff.mp searched last (List.mem_of_getLast? member)
      exact Bool.eq_false_iff.mp other ((ipAddressesAndIdMatch_iff _ _).mpr named)

/-- A fragment of eight bytes. -/
def eightBytes (id offset : UInt16) : Fragment where
  iphdr := ⟨0x45, 0, 28, id, offset, 64, 17, 0, 1, 2⟩
  chain := [List.replicate 8 0]
  filled := by decide
  trimmed := by
    simp only [IpHdr.hl]
    decide

end IpReass

end NnpCamera.Network
