/-
This file models the Internet checksum of the network stack. The cuts of a packet into buffers and the
addresses of the buffers do not change its checksum.
-/

import NnpCamera.Library.OnesComplement
import NnpCamera.Parameters.Packet
import Mathlib.Data.Nat.Digits.Defs

namespace NnpCamera.Network
open Library
open Parameters (littleEndian littleEndian_halves)

/-- `FOLD_U32T` adds the two halves. -/
def foldU32t (u : UInt32) : UInt32 := (u >>> 16) + (u &&& 0xffff)

/-- `SWAP_BYTES_IN_WORD` exchanges the two low bytes. -/
def swapBytesInWord (w : UInt32) : UInt32 := ((w &&& 0xff) <<< 8) ||| ((w &&& 0xff00) >>> 8)

/-- The data is added two bytes at a time. The last byte of an odd number of bytes is left over. -/
def addWords (sum : UInt32) : List UInt8 → UInt32 × UInt8
  | [] => (sum, 0)
  | [last] => (sum, last)
  | low :: high :: rest => addWords (sum + (littleEndian low high).toUInt32) rest

/-- The sum of a buffer at any address. The bytes of a buffer at an odd address are added in the other
order, and the sum is swapped at the end. -/
def lwipStandardChksum (dataptr : UInt32) (data : List UInt8) : UInt16 :=
  let odd := dataptr &&& 1 ≠ 0
  let (first, bulk) := match data with
    | [] => (0, [])
    | first :: rest => if odd then (first, rest) else (0, first :: rest)
  let (sum, last) := addWords 0 bulk
  let sum := sum + (littleEndian last first).toUInt32
  let sum := foldU32t (foldU32t sum)
  let sum := if odd then swapBytesInWord sum else sum
  sum.toUInt16

def inetChksum (dataptr : UInt32) (data : List UInt8) : UInt16 :=
  ~~~lwipStandardChksum dataptr data

/-- The payload of a buffer and its address. -/
structure Payload where
  payload : UInt32
  data : List UInt8
  fits : data.length < 65536

/-- The sum of one more buffer is added. A buffer of odd length swaps the order of the bytes. -/
def addPayload : UInt32 × Bool → Payload → UInt32 × Bool
  | (acc, swapped), part =>
      let acc := foldU32t (acc + (lwipStandardChksum part.payload part.data).toUInt32)
      if part.data.length % 2 ≠ 0 then (swapBytesInWord acc, !swapped) else (acc, swapped)

def inetChksumPbuf (p : List Payload) : UInt16 :=
  let (acc, swapped) := p.foldl addPayload (0, false)
  let acc := if swapped then swapBytesInWord acc else acc
  ~~~(acc &&& 0xffff).toUInt16

/-- The bytes as one number, in the order of the addresses. -/
def octets (data : List UInt8) : Nat := Nat.ofDigits 256 (data.map UInt8.toNat)

@[simp] theorem octets_nil : octets [] = 0 := rfl

theorem octets_cons (byte : UInt8) (data : List UInt8) :
    octets (byte :: data) = byte.toNat + 256 * octets data := by
  rw [octets, List.map_cons, Nat.ofDigits_cons, octets]

theorem octets_append (data more : List UInt8) :
    octets (data ++ more) = octets data + 256 ^ data.length * octets more := by
  rw [octets, List.map_append, Nat.ofDigits_append, List.length_map, octets, octets]

theorem littleEndian_toNat (low high : UInt8) :
    (littleEndian low high).toNat = low.toNat + 256 * high.toNat := by
  have first := low.toNat_lt
  have second := high.toNat_lt
  simp only [littleEndian, UInt16.toNat_add, UInt16.toNat_shiftLeft, UInt8.toNat_toUInt16,
    UInt16.reduceToNat, Nat.reduceMod, Nat.shiftLeft_eq, Nat.reducePow]
  omega

theorem foldU32t_toNat (u : UInt32) :
    (foldU32t u).toNat = u.toNat / 65536 + u.toNat % 65536 := by
  have less := u.toNat_lt
  have low : u.toNat &&& 65535 = u.toNat % 65536 := Nat.and_two_pow_sub_one_eq_mod _ 16
  simp only [foldU32t, UInt32.toNat_add, UInt32.toNat_shiftRight, UInt32.toNat_and,
    UInt32.reduceToNat, Nat.reduceMod, Nat.shiftRight_eq_div_pow, Nat.reducePow, low]
  omega

theorem swapBytesInWord_toNat {w : UInt32} (word : w.toNat ≤ 65535) :
    (swapBytesInWord w).toNat = 256 * (w.toNat % 256) + w.toNat / 256 := by
  have low : w.toNat &&& 255 = w.toNat % 256 := Nat.and_two_pow_sub_one_eq_mod _ 8
  have high : (w.toNat &&& 65280) / 256 = w.toNat / 256 := by
    have split : (w.toNat &&& 65280) / 2 ^ 8 = w.toNat / 2 ^ 8 &&& 65280 / 2 ^ 8 := by
      simp only [← Nat.shiftRight_eq_div_pow, Nat.shiftRight_and_distrib]
    have mask : w.toNat / 256 &&& 255 = w.toNat / 256 % 256 := Nat.and_two_pow_sub_one_eq_mod _ 8
    norm_num at split
    omega
  have shifted : w.toNat % 256 * 256 % 4294967296 = 2 ^ 8 * (w.toNat % 256) := by omega
  have below : w.toNat / 256 < 2 ^ 8 := by omega
  simp only [swapBytesInWord, UInt32.toNat_or, UInt32.toNat_shiftLeft, UInt32.toNat_shiftRight,
    UInt32.toNat_and, UInt32.reduceToNat, Nat.reduceMod, Nat.shiftRight_eq_div_pow, low, high,
    Nat.shiftLeft_eq, Nat.reducePow]
  rw [shifted, ← Nat.two_pow_add_eq_or_of_lt below]

/-- A fold leaves at most a word and a carry. -/
theorem foldU32t_same (u : UInt32) : SameSum 65535 (foldU32t u).toNat u.toNat := by
  rw [foldU32t_toNat]
  exact .fold u.toNat

theorem swapBytesInWord_same {w : UInt32} (word : w.toNat ≤ 65535) :
    SameSum 65535 (swapBytesInWord w).toNat (256 * w.toNat) := by
  rw [swapBytesInWord_toNat word]
  exact .swap (by decide) w.toNat

/-- The sum of the words and the byte that is left over is the sum of the bytes. -/
theorem addWords_same (data : List UInt8) (sum : UInt32)
    (fits : sum.toNat + 65535 * ((data.length + 1) / 2) < 2 ^ 32) :
    SameSum 65535 ((addWords sum data).1.toNat + (addWords sum data).2.toNat)
        (sum.toNat + octets data) ∧
      (addWords sum data).1.toNat ≤ sum.toNat + 65535 * (data.length / 2) := by
  induction sum, data using addWords.induct with
  | case1 sum => exact ⟨.refl _, Nat.le_refl _⟩
  | case2 sum last =>
      rw [addWords, octets_cons]
      exact ⟨.refl _, Nat.le_add_right ..⟩
  | case3 sum low high rest ih =>
      have word := (littleEndian low high).toNat_lt
      have added : (sum + (littleEndian low high).toUInt32).toNat =
          sum.toNat + (littleEndian low high).toNat := by
        rw [UInt32.toNat_add, UInt16.toNat_toUInt32, Nat.mod_eq_of_lt]
        simp only [List.length_cons] at fits
        omega
      simp only [List.length_cons] at fits ⊢
      obtain ⟨same, least⟩ := ih (by omega)
      rw [addWords]
      refine ⟨same.trans ?_, by omega⟩
      rw [added, littleEndian_toNat, octets_cons, octets_cons, Nat.add_assoc, Nat.mul_add]
      have rest_same : SameSum 65535 (octets rest) (256 * (256 * octets rest)) :=
        (SameSum.shift (by decide) _).symm
      simpa only [Nat.add_assoc] using
        (SameSum.refl (sum.toNat + (low.toNat + 256 * high.toNat))).add rest_same

/-- Two folds leave one word. -/
theorem foldU32t_twice (u : UInt32) : (foldU32t (foldU32t u)).toNat ≤ 65535 := by
  have less := u.toNat_lt
  rw [foldU32t_toNat, foldU32t_toNat]
  omega

/-- The checksum of a buffer is the sum of its bytes, at an even or an odd address. -/
theorem lwipStandardChksum_same (dataptr : UInt32) {data : List UInt8}
    (fits : data.length < 65536) :
    SameSum 65535 (lwipStandardChksum dataptr data).toNat (octets data) := by
  -- the sum before the folds, of all bytes but the first one of an odd address
  have total (first : UInt8) {bulk : List UInt8} (less : bulk.length < 65536) :
      SameSum 65535 (foldU32t (foldU32t ((addWords 0 bulk).1 +
        (littleEndian (addWords 0 bulk).2 first).toUInt32))).toNat
        (octets bulk + 256 * first.toNat) := by
    obtain ⟨same, least⟩ := addWords_same bulk 0 (by simp; omega)
    have last := littleEndian_toNat (addWords 0 bulk).2 first
    have word := (littleEndian (addWords 0 bulk).2 first).toNat_lt
    simp only [UInt32.toNat_zero, Nat.zero_add] at same least
    refine (foldU32t_same _).trans ((foldU32t_same _).trans ?_)
    rw [UInt32.toNat_add, UInt16.toNat_toUInt32, Nat.mod_eq_of_lt (by omega), last, ← Nat.add_assoc]
    exact same.add (.refl _)
  have small {sum : UInt32} (word : sum.toNat ≤ 65535) : sum.toUInt16.toNat = sum.toNat :=
    (UInt32.toNat_toUInt16 sum).trans (Nat.mod_eq_of_lt (Nat.lt_succ_of_le word))
  have swapped {sum : UInt32} (word : sum.toNat ≤ 65535) : (swapBytesInWord sum).toNat ≤ 65535 := by
    rw [swapBytesInWord_toNat word]
    omega
  by_cases odd : dataptr &&& 1 ≠ 0
  · cases data with
    | nil =>
        have none : lwipStandardChksum dataptr [] = 0 := by
          simp only [lwipStandardChksum, if_pos odd]
          rfl
        rw [none]
        exact .refl 0
    | cons first rest =>
        have enough := total first (Nat.lt_of_succ_lt fits)
        simp only [lwipStandardChksum, if_pos odd]
        rw [small (swapped (foldU32t_twice _)), octets_cons]
        refine (swapBytesInWord_same (foldU32t_twice _)).trans ((enough.mul 256).trans ?_)
        rw [Nat.mul_add, Nat.add_comm]
        exact (SameSum.shift (by decide) _).add (.refl _)
  · have enough := total 0 fits
    cases data <;> simp only [lwipStandardChksum, if_neg odd] <;> rw [small (foldU32t_twice _)] <;>
      exact enough

/-- The bytes of a chain. -/
def chainData (p : List Payload) : List UInt8 := p.flatMap Payload.data

/-- The state after a part of the bytes. When their number is odd, the bytes are in the other order. -/
structure Added (done : List UInt8) (state : UInt32 × Bool) : Prop where
  word : state.1.toNat ≤ 65535
  swapped : state.2 = true ↔ done.length % 2 = 1
  same : SameSum 65535 state.1.toNat ((if state.2 then 256 else 1) * octets done)

/-- An even number of bytes shifts no sum. -/
theorem octets_shift (count sum : Nat) : SameSum 65535 (256 ^ (2 * count) * sum) sum := by
  induction count with
  | zero => simpa using .refl sum
  | succ count ih =>
      have split : 256 ^ (2 * (count + 1)) * sum = 256 * (256 * (256 ^ (2 * count) * sum)) := by ring
      exact split ▸ (SameSum.shift (by decide) _).trans ih

/-- More bytes are added behind an even number of bytes, or behind an odd number in the other order. -/
theorem octets_behind (done data : List UInt8) {swapped : Bool}
    (odd : swapped = true ↔ done.length % 2 = 1) :
    SameSum 65535 ((if swapped then 256 else 1) * octets done + octets data)
      ((if swapped then 256 else 1) * octets (done ++ data)) := by
  rw [octets_append]
  cases swapped with
  | false =>
      obtain ⟨count, even⟩ : ∃ count, done.length = 2 * count := ⟨done.length / 2, by grind⟩
      simp only [Bool.false_eq_true, if_false, Nat.one_mul]
      rw [even]
      exact (SameSum.refl _).add (octets_shift count _).symm
  | true =>
      obtain ⟨count, next⟩ : ∃ count, done.length + 1 = 2 * count :=
        ⟨(done.length + 1) / 2, by grind⟩
      simp only [if_true]
      rw [Nat.mul_add, ← Nat.mul_assoc, ← Nat.pow_succ', Nat.succ_eq_add_one, next]
      exact (SameSum.refl _).add (octets_shift count _).symm

theorem Added.payload {done : List UInt8} {state : UInt32 × Bool} (added : Added done state)
    (part : Payload) : Added (done ++ part.data) (addPayload state part) := by
  obtain ⟨acc, swapped⟩ := state
  have word : acc.toNat ≤ 65535 := added.word
  have chksum := (lwipStandardChksum part.payload part.data).toNat_lt
  have data := lwipStandardChksum_same part.payload part.fits
  rw [addPayload]
  generalize lwipStandardChksum part.payload part.data = sum at chksum data
  have whole : (acc + sum.toUInt32).toNat = acc.toNat + sum.toNat := by
    rw [UInt32.toNat_add, UInt16.toNat_toUInt32, Nat.mod_eq_of_lt (by omega)]
  have folded : (foldU32t (acc + sum.toUInt32)).toNat ≤ 65535 := by
    rw [foldU32t_toNat, whole]
    omega
  have same : SameSum 65535 (foldU32t (acc + sum.toUInt32)).toNat
      ((if swapped then 256 else 1) * octets (done ++ part.data)) := by
    refine (foldU32t_same _).trans ?_
    rw [whole]
    exact (added.same.add data).trans (octets_behind done part.data added.swapped)
  have length : (done ++ part.data).length = done.length + part.data.length := List.length_append
  have odd := added.swapped
  dsimp only at odd
  by_cases turns : part.data.length % 2 ≠ 0
  · rw [if_pos turns]
    have turned := (swapBytesInWord_same folded).trans (same.mul 256)
    have bound : (swapBytesInWord (foldU32t (acc + sum.toUInt32))).toNat ≤ 65535 := by
      rw [swapBytesInWord_toNat folded]
      omega
    cases swapped with
    | false => exact ⟨bound, by grind, by simpa using turned⟩
    | true => exact ⟨bound, by grind, by simpa using turned.trans (SameSum.shift (by decide) _)⟩
  · rw [if_neg turns]
    exact ⟨folded, by grind, same⟩

theorem added_chain (p : List Payload) {done : List UInt8} {state : UInt32 × Bool}
    (before : Added done state) : Added (done ++ chainData p) (p.foldl addPayload state) := by
  induction p generalizing done state with
  | nil => simpa [chainData] using before
  | cons part rest ih =>
      have next := ih (before.payload part)
      rwa [List.append_assoc] at next

theorem added_start : Added [] (0, false) := ⟨by decide, by simp, .refl 0⟩

/-- The complement of the checksum of a chain is the ones' complement sum of its bytes, wherever the
chain is cut and whatever the addresses of its buffers are. -/
theorem inetChksumPbuf_same (p : List Payload) :
    SameSum 65535 (~~~inetChksumPbuf p).toNat (octets (chainData p)) := by
  have final := added_chain p added_start
  rw [List.nil_append] at final
  simp only [inetChksumPbuf, UInt16.not_not]
  generalize p.foldl addPayload (0, false) = state at final
  obtain ⟨acc, swapped⟩ := state
  have word : acc.toNat ≤ 65535 := final.word
  have small {sum : UInt32} (less : sum.toNat ≤ 65535) :
      (sum &&& 65535).toUInt16.toNat = sum.toNat := by
    have low : sum.toNat &&& 65535 = sum.toNat % 65536 := Nat.and_two_pow_sub_one_eq_mod _ 16
    simp only [UInt32.toNat_toUInt16, UInt32.toNat_and, UInt32.reduceToNat, low]
    omega
  cases swapped with
  | false =>
      simp only [Bool.false_eq_true, if_false, small word]
      simpa using final.same
  | true =>
      have bound : (swapBytesInWord acc).toNat ≤ 65535 := by
        rw [swapBytesInWord_toNat word]
        omega
      have turned := (swapBytesInWord_same word).trans (final.same.mul 256)
      simp only [if_true, small bound]
      exact turned.trans (SameSum.shift (by decide) _)

theorem inetChksum_same (dataptr : UInt32) {data : List UInt8} (fits : data.length < 65536) :
    SameSum 65535 (~~~inetChksum dataptr data).toNat (octets data) := by
  rw [inetChksum, UInt16.not_not]
  exact lwipStandardChksum_same dataptr fits

/-- A checksum is determined by the sum. -/
theorem chksum_eq {first second : UInt16} (same : SameSum 65535 (~~~first).toNat (~~~second).toNat) :
    first = second := by
  have equal := UInt16.toNat_inj.mp
    (same.eq (Nat.le_of_lt_succ (UInt16.toNat_lt _)) (Nat.le_of_lt_succ (UInt16.toNat_lt _)))
  exact UInt16.not_inj.mp equal

/-- The address of a buffer does not change its checksum. -/
theorem inetChksum_moved (dataptr other : UInt32) {data : List UInt8} (fits : data.length < 65536) :
    inetChksum dataptr data = inetChksum other data :=
  chksum_eq ((inetChksum_same dataptr fits).trans (inetChksum_same other fits).symm)

/-- A packet has one checksum, in one buffer or in a chain of buffers, at any addresses. -/
theorem chksum_chain (p : List Payload) (dataptr : UInt32) (fits : (chainData p).length < 65536) :
    inetChksumPbuf p = inetChksum dataptr (chainData p) :=
  chksum_eq ((inetChksumPbuf_same p).trans (inetChksum_same dataptr fits).symm)

/-- Three bytes are cut behind the first one. -/
theorem chksum_chain_cut :
    inetChksumPbuf [⟨0, [1], by decide⟩, ⟨7, [2, 3], by decide⟩] = inetChksum 5 [1, 2, 3] :=
  chksum_chain [⟨0, [1], by decide⟩, ⟨7, [2, 3], by decide⟩] 5 (by decide)

/-- A word at an even place is added to the sum of the other bytes. -/
theorem octets_word {before : List UInt8} (place : before.length % 2 = 0) (low high : UInt8)
    (after : List UInt8) :
    SameSum 65535 (octets (before ++ low :: high :: after))
      (octets (before ++ 0 :: 0 :: after) + (littleEndian low high).toNat) := by
  obtain ⟨count, even⟩ : ∃ count, before.length = 2 * count := ⟨before.length / 2, by omega⟩
  have parts (low high : UInt8) : SameSum 65535 (octets (before ++ low :: high :: after))
      (octets before + ((littleEndian low high).toNat + octets after)) := by
    rw [octets_append, even]
    refine (SameSum.refl _).add ((octets_shift count _).trans ?_)
    rw [octets_cons, octets_cons, littleEndian_toNat, Nat.mul_add, ← Nat.add_assoc]
    exact (SameSum.refl _).add (SameSum.shift (by decide) _)
  have empty := (parts 0 0).symm.add (.refl (littleEndian low high).toNat)
  rw [show (littleEndian 0 0).toNat = 0 from rfl, Nat.zero_add] at empty
  refine (parts low high).trans (.trans ?_ empty)
  rw [Nat.add_assoc, Nat.add_comm (octets after)]
  exact .refl _

/-- A checksum is accepted when the field of the packet has the checksum of the rest, or the other
zero. -/
theorem chksum_field {result chksum field : UInt16}
    (whole : SameSum 65535 (~~~result).toNat ((~~~chksum).toNat + field.toNat)) :
    result = 0 ↔ field = chksum ∨ chksum = 0 ∧ field = 65535 := by
  have complement (value : UInt16) : (~~~value).toNat = 65535 - value.toNat := by
    rw [UInt16.toNat_not]
    rfl
  rw [complement, complement] at whole
  have first := result.toNat_lt
  have second := chksum.toNat_lt
  have third := field.toNat_lt
  have around := whole.modEq
  have none := whole.empty
  simp only [← UInt16.toNat_inj, UInt16.reduceToNat]
  rw [Nat.ModEq] at around
  omega

/-- A header with its checksum is accepted. -/
theorem inetChksum_filled (dataptr : UInt32) {before after : List UInt8} {chksum : UInt16}
    (place : before.length % 2 = 0) (fits : (before ++ 0 :: 0 :: after).length < 65536)
    (computed : inetChksum dataptr (before ++ 0 :: 0 :: after) = chksum) :
    inetChksum dataptr (before ++ chksum.toUInt8 :: (chksum >>> 8).toUInt8 :: after) = 0 := by
  have same_length : (before ++ chksum.toUInt8 :: (chksum >>> 8).toUInt8 :: after).length < 65536 := by
    simpa using fits
  have word := octets_word place chksum.toUInt8 (chksum >>> 8).toUInt8 after
  rw [littleEndian_halves] at word
  have sent := inetChksum_same dataptr fits
  rw [computed] at sent
  exact (chksum_field ((inetChksum_same dataptr same_length).trans
    (word.trans (sent.symm.add (.refl _))))).mpr (.inl rfl)

/-- A stored checksum is accepted when it is the one that the sender computes with an empty field, or
when it is the other zero. -/
theorem chksum_accepts (p : List Payload) (dataptr : UInt32) {before after : List UInt8}
    {low high : UInt8} (place : before.length % 2 = 0)
    (bytes : chainData p = before ++ low :: high :: after)
    (fits : (chainData p).length < 65536) :
    inetChksumPbuf p = 0 ↔
      littleEndian low high = inetChksum dataptr (before ++ 0 :: 0 :: after) ∨
        inetChksum dataptr (before ++ 0 :: 0 :: after) = 0 ∧ littleEndian low high = 65535 := by
  have same_length : (before ++ 0 :: 0 :: after).length < 65536 := by simpa [bytes] using fits
  have sent := inetChksum_same dataptr same_length
  have received := inetChksumPbuf_same p
  rw [bytes] at received
  exact chksum_field ((received.trans (octets_word place low high after)).trans
    (sent.symm.add (.refl _)))

/-- An echo request with its checksum is accepted in two buffers. -/
theorem chksum_accepts_echo :
    inetChksumPbuf [⟨0, [8, 0, 247], by decide⟩, ⟨1, [253, 0, 1, 0, 1], by decide⟩] = 0 :=
  (chksum_accepts [⟨0, [8, 0, 247], by decide⟩, ⟨1, [253, 0, 1, 0, 1], by decide⟩] 0
    (show [8, 0].length % 2 = 0 from rfl) rfl (by decide)).mpr (by decide)

end NnpCamera.Network
