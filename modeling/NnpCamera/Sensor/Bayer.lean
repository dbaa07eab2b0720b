/-
This file models the conversion of a raw image in `MT9P031D.c` and shows which raw pixels each output
pixel takes its colours from.
-/

import NnpCamera.Library.Loop
import Mathlib.Algebra.Order.Group.Abs
import Mathlib.Data.UInt

namespace NnpCamera.Sensor
open Library

/-- The values `red`, `green` and `blue` of the conversion. -/
structure Colours where
  red : UInt8
  green : UInt8
  blue : UInt8

def rgb24_2_565 (r g b : UInt8) : UInt16 :=
  let red := (r.toUInt32 <<< 8) &&& 0xF800
  let green := (g.toUInt32 <<< 3) &&& 0x7E0
  let blue := b.toUInt32 >>> 3
  (red ||| green ||| blue).toUInt16

/-- The sum of two bytes is halved. -/
def average (first second : UInt8) : UInt8 :=
  ((first.toUInt32 + second.toUInt32) >>> 1).toUInt8

/-- These indices of the raw image are read for one pixel. -/
structure Loads where
  red : Int
  green : Int
  other : Int
  blue : Int
  deriving DecidableEq, Repr

/-- The branches of the conversion. No index is larger than the number of pixels, which a `long` can
hold for each image in memory. -/
def bayerLoads (width height x y : Int) : Option Loads :=
  if x = 0 then
    if y = 0 then
      some ⟨x + 1, x, x + 1 + (y + 1) * width, (y + 1) * width⟩
    else if y = height - 1 then
      some ⟨x + 1 + (y - 1) * width, x + 1 + y * width, x + (y - 1) * width, x + y * width⟩
    else if y % 2 = 1 then
      some ⟨x + 1 + (y + 1) * width, x + 1 + y * width, x + (y + 1) * width, x + y * width⟩
    else if y % 2 = 0 then
      some ⟨x + 1 + y * width, x + 1 + (y + 1) * width, x + y * width, x + (y + 1) * width⟩
    else none
  else if x = width - 1 then
    if y = 0 then
      some ⟨x + y * width, x + (y + 1) * width, x - 1 + y * width, x - 1 + (y + 1) * width⟩
    else if y = height - 1 then
      some ⟨x + (y - 1) * width, x + y * width, x - 1 + (y - 1) * width, x - 1 + (y - 1) * width⟩
    else if y % 2 = 1 then
      some ⟨x + (y + 1) * width, x + y * width, x - 1 + (y + 1) * width, x - 1 + y * width⟩
    else if y % 2 = 0 then
      some ⟨x + y * width, x + (y + 1) * width, x - 1 + y * width, x - 1 + (y + 1) * width⟩
    else none
  else if x % 2 = 1 then
    if y = 0 then
      some ⟨x + y * width, x + (y + 1) * width, x - 1 + y * width, x - 1 + (y + 1) * width⟩
    else if y = height - 1 then
      some ⟨x + (y - 1) * width, x + y * width, x - 1 + (y - 1) * width, x - 1 + y * width⟩
    else if y % 2 = 1 then
      some ⟨x + (y + 1) * width, x + y * width, x - 1 + (y + 1) * width, x - 1 + y * width⟩
    else if y % 2 = 0 then
      some ⟨x + y * width, x + (y + 1) * width, x - 1 + y * width, x - 1 + (y + 1) * width⟩
    else none
  else if x % 2 = 0 then
    if y = 0 then
      some ⟨x - 1 + y * width, x + y * width, x - 1 + (y + 1) * width, x + (y + 1) * width⟩
    else if y = height - 1 then
      some ⟨x - 1 + (y - 1) * width, x + (y - 1) * width, x - 1 + y * width, x + y * width⟩
    else if y % 2 = 0 then
      some ⟨x - 1 + y * width, x + y * width, x - 1 + (y + 1) * width, x + (y + 1) * width⟩
    else if y % 2 = 1 then
      some ⟨x - 1 + (y + 1) * width, x + (y + 1) * width, x - 1 + y * width, x + y * width⟩
    else none
  else none

/-- A read outside the raw image fails. -/
def load (bayer : Array UInt8) (index : Int) : Option UInt8 :=
  if 0 ≤ index then bayer[index.toNat]? else none

/-- A write outside the output image fails. -/
def store (image : Array UInt16) (index : Int) (value : UInt16) : Option (Array UInt16) :=
  if 0 ≤ index ∧ index.toNat < image.size then some (image.setIfInBounds index.toNat value)
  else none

/-- The reads of one branch. -/
def loadColours (bayer : Array UInt8) (loads : Loads) : Option Colours := do
  let red ← load bayer loads.red
  let green ← load bayer loads.green
  let other ← load bayer loads.other
  let blue ← load bayer loads.blue
  return { red := red, green := average green other, blue := blue }

/-- One pass of the inner loop. Without a branch the colours of the pixel before stay. -/
def bayerPixel (bayer : Array UInt8) (width height x y : Int) (state : Colours × Array UInt16) :
    Option (Colours × Array UInt16) := do
  let colours ← match bayerLoads width height x y with
    | some loads => loadColours bayer loads
    | none => some state.1
  let image ← store state.2 (y * width + x)
    (rgb24_2_565 colours.red colours.green colours.blue)
  return (colours, image)

/-- The conversion fails at the first access outside an array. -/
def bayer2rgb24Bingo (dst : Array UInt16) (src : Array UInt8) (width height : Int) :
    Option (Array UInt16) :=
  (loop (fun y => loop (fun x state => state.bind (bayerPixel src width height x y)) width.toNat)
    height.toNat (some (⟨0, 0, 0⟩, dst))).map Prod.snd

/-- The colour filters of the sensor. -/
inductive Filter where
  | red
  | green
  | blue
  deriving DecidableEq, Repr

/-- A place in the raw image. -/
structure Site where
  x : Int
  y : Int
  deriving DecidableEq, Repr

/-- Even rows start with green and red, odd rows with blue and green. -/
def Site.filter (site : Site) : Filter :=
  if site.y % 2 = 0 then if site.x % 2 = 0 then .green else .red
  else if site.x % 2 = 0 then .blue else .green

/-- The rows follow each other in the raw image. -/
def Site.index (width : Int) (site : Site) : Int := site.x + site.y * width

/-- A site of the image. -/
structure Site.Inside (width height : Int) (site : Site) : Prop where
  column : 0 ≤ site.x ∧ site.x < width
  row : 0 ≤ site.y ∧ site.y < height

/-- A site of the image, with this filter, at most one row and one column away. -/
structure Site.Feeds (width height x y : Int) (filter : Filter) (site : Site) : Prop
    extends site.Inside width height where
  near : |site.x - x| ≤ 1 ∧ |site.y - y| ≤ 1
  filter : site.filter = filter

/-- The byte of a site in a raw image. -/
def Site.value (width : Int) (src : Array UInt8) (site : Site) : UInt8 :=
  src.getD (site.index width).toNat 0

/-- An even row at a pixel. -/
def evenRow (height y : Int) : Int :=
  if y % 2 = 0 then y else if y = height - 1 then y - 1 else y + 1

/-- An odd row at a pixel. -/
def oddRow (y : Int) : Int := if y % 2 = 0 then y + 1 else y

/-- An even column at a pixel. -/
def evenColumn (x : Int) : Int := if x % 2 = 0 then x else x - 1

/-- An odd column at a pixel. -/
def oddColumn (x : Int) : Int := if x = 0 then x + 1 else if x % 2 = 0 then x - 1 else x

/-- The site that a pixel takes its red from. -/
def redSite (height x y : Int) : Site := ⟨oddColumn x, evenRow height y⟩

/-- One of the sites that a pixel takes its green from. -/
def greenSite (height x y : Int) : Site := ⟨evenColumn x, evenRow height y⟩

/-- The other site that a pixel takes its green from. -/
def otherSite (x y : Int) : Site := ⟨oddColumn x, oddRow y⟩

/-- The site that a pixel takes its blue from. The last pixel takes a green site. -/
def blueSite (width height x y : Int) : Site :=
  if x = width - 1 ∧ y = height - 1 then greenSite height x y else ⟨evenColumn x, oddRow y⟩

section Sites
variable {width height x y : Int} (evenWidth : width % 2 = 0) (evenHeight : height % 2 = 0)
  (insideX : 0 ≤ x ∧ x < width) (insideY : 0 ≤ y ∧ y < height)
include evenWidth evenHeight insideX insideY

/-- The branches read the four sites. The two green ones come in either order. -/
theorem bayerLoads_sites :
    let red := (redSite height x y).index width
    let green := (greenSite height x y).index width
    let other := (otherSite x y).index width
    let blue := (blueSite width height x y).index width
    bayerLoads width height x y = some ⟨red, green, other, blue⟩ ∨
      bayerLoads width height x y = some ⟨red, other, green, blue⟩ := by
  -- The truth values keep the variables in the indices.
  have rows : ((y = 0) = True ∧ (y = height - 1) = False ∧ (y % 2 = 0) = True ∧
        (y % 2 = 1) = False) ∨
      ((y = 0) = False ∧ (y = height - 1) = True ∧ (y % 2 = 0) = False ∧ (y % 2 = 1) = True) ∨
      ((y = 0) = False ∧ (y = height - 1) = False ∧ (y % 2 = 0) = False ∧ (y % 2 = 1) = True) ∨
      ((y = 0) = False ∧ (y = height - 1) = False ∧ (y % 2 = 0) = True ∧ (y % 2 = 1) = False) := by
    simp only [eq_iff_iff, iff_true, iff_false]
    omega
  have columns : ((x = 0) = True ∧ (x = width - 1) = False ∧ (x % 2 = 0) = True ∧
        (x % 2 = 1) = False) ∨
      ((x = 0) = False ∧ (x = width - 1) = True ∧ (x % 2 = 0) = False ∧ (x % 2 = 1) = True) ∨
      ((x = 0) = False ∧ (x = width - 1) = False ∧ (x % 2 = 0) = False ∧ (x % 2 = 1) = True) ∨
      ((x = 0) = False ∧ (x = width - 1) = False ∧ (x % 2 = 0) = True ∧ (x % 2 = 1) = False) := by
    simp only [eq_iff_iff, iff_true, iff_false]
    omega
  rcases rows with ⟨top, bottom, even, odd⟩ | ⟨top, bottom, even, odd⟩ |
    ⟨top, bottom, even, odd⟩ | ⟨top, bottom, even, odd⟩ <;>
  rcases columns with ⟨left, right, evenX, oddX⟩ | ⟨left, right, evenX, oddX⟩ |
    ⟨left, right, evenX, oddX⟩ | ⟨left, right, evenX, oddX⟩ <;>
  simp only [bayerLoads, redSite, greenSite, otherSite, blueSite, Site.index, evenRow, oddRow,
    evenColumn, oddColumn, top, bottom, even, odd, left, right, evenX, oddX, if_true, if_false,
    and_true, and_false, true_or, or_true]
  -- The branch of the first pixel leaves out the row.
  rw [of_eq_true top, of_eq_true left]
  simp

theorem redSite_feeds : (redSite height x y).Feeds width height x y .red := by
  refine ⟨⟨?_, ?_⟩, ?_, ?_⟩ <;> simp only [redSite, oddColumn, evenRow, Site.filter] <;> grind

theorem greenSite_feeds : (greenSite height x y).Feeds width height x y .green := by
  refine ⟨⟨?_, ?_⟩, ?_, ?_⟩ <;> simp only [greenSite, evenColumn, evenRow, Site.filter] <;> grind

theorem otherSite_feeds : (otherSite x y).Feeds width height x y .green := by
  refine ⟨⟨?_, ?_⟩, ?_, ?_⟩ <;> simp only [otherSite, oddColumn, oddRow, Site.filter] <;> grind

theorem blueSite_feeds (elsewhere : ¬ (x = width - 1 ∧ y = height - 1)) :
    (blueSite width height x y).Feeds width height x y .blue := by
  rw [blueSite, if_neg elsewhere]
  refine ⟨⟨?_, ?_⟩, ?_, ?_⟩ <;> simp only [evenColumn, oddRow, Site.filter] <;> grind

end Sites

namespace Site.Inside
variable {width height : Int} {site second : Site} (inside : site.Inside width height)
include inside

theorem index_inside : 0 ≤ site.index width ∧ (site.index width).toNat < (width * height).toNat := by
  obtain ⟨⟨left, right⟩, top, bottom⟩ := inside
  have below : (site.y + 1) * width ≤ height * width :=
    Int.mul_le_mul_of_nonneg_right (by omega) (by omega)
  have above : 0 ≤ site.y * width := Int.mul_nonneg top (by omega)
  rw [Int.add_mul, Int.mul_comm height] at below
  simp only [Site.index]
  omega

/-- The raw image has a byte at each site. -/
theorem load_value {src : Array UInt8} (size : src.size = (width * height).toNat) :
    load src (site.index width) = some (site.value width src) := by
  have index := inside.index_inside
  rw [← size] at index
  rw [load, if_pos index.1, Site.value, Array.getElem?_eq_getElem index.2]
  simp [Array.getD, index.2]

/-- Two sites with one index are the same. -/
theorem index_inj (other : second.Inside width height)
    (same : (site.index width).toNat = (second.index width).toNat) : site = second := by
  have first := inside.index_inside
  have last := other.index_inside
  have index : site.x + site.y * width = second.x + second.y * width := by
    simp only [Site.index] at *
    omega
  have column : site.x = second.x := by
    have rest := congrArg (· % width) index
    simp only [Int.add_mul_emod_self_right] at rest
    rwa [Int.emod_eq_of_lt inside.column.1 inside.column.2,
      Int.emod_eq_of_lt other.column.1 other.column.2] at rest
  have row : site.y = second.y := by
    rw [column] at index
    exact Int.eq_of_mul_eq_mul_right (by have := inside.column; omega) (Int.add_left_cancel index)
  cases site
  cases second
  simp_all

end Site.Inside

/-- Every pixel is in the rows of the image. -/
theorem pixel_before {width height x y : Nat} (insideX : x < width) (insideY : y < height) :
    y * width + x < height * width := by
  have below : (y + 1) * width ≤ height * width := Nat.mul_le_mul_right _ insideY
  rw [Nat.succ_mul] at below
  omega

/-- Every write is inside the output image. -/
theorem pixel_inside {width height : Int} {x y : Nat} (insideX : x < width.toNat)
    (insideY : y < height.toNat) : y * width.toNat + x < (width * height).toNat := by
  rw [Int.toNat_mul (by omega) (by omega), Nat.mul_comm width.toNat]
  exact pixel_before insideX insideY

/-- A pixel index gives back its column and its row. -/
theorem pixel_place {width x : Nat} (insideX : x < width) (y : Nat) :
    (y * width + x) % width = x ∧ (y * width + x) / width = y := by
  constructor
  · rw [Nat.mul_add_mod', Nat.mod_eq_of_lt insideX]
  · rw [Nat.mul_comm, Nat.mul_add_div (by omega), Nat.div_eq_of_lt insideX, Nat.add_zero]

/-- The index of a pixel as a natural number. -/
theorem pixel_index {width : Int} (wide : 0 ≤ width) (x y : Nat) :
    (y * width + x : Int) = ((y * width.toNat + x : Nat) : Int) := by
  rw [Int.natCast_add, Int.natCast_mul, Int.toNat_of_nonneg wide]

theorem average_comm (first second : UInt8) : average first second = average second first := by
  rw [average, UInt32.add_comm, average]

/-- These colours reach the pixel. -/
def siteColours (src : Array UInt8) (width height x y : Int) : Colours where
  red := (redSite height x y).value width src
  green := average ((greenSite height x y).value width src) ((otherSite x y).value width src)
  blue := (blueSite width height x y).value width src

/-- This is the value of the output pixel. -/
def sitePixel (src : Array UInt8) (width height x y : Int) : UInt16 :=
  let colours := siteColours src width height x y
  rgb24_2_565 colours.red colours.green colours.blue

section Conversion
variable {width height : Int} (evenWidth : width % 2 = 0) (evenHeight : height % 2 = 0)
  {src : Array UInt8} (size : src.size = (width * height).toNat)
include evenWidth evenHeight

theorem blueSite_inside {x y : Int} (insideX : 0 ≤ x ∧ x < width) (insideY : 0 ≤ y ∧ y < height) :
    (blueSite width height x y).Inside width height := by
  by_cases corner : x = width - 1 ∧ y = height - 1
  · rw [blueSite, if_pos corner]
    exact (greenSite_feeds evenWidth evenHeight insideX insideY).toInside
  · exact (blueSite_feeds evenWidth evenHeight insideX insideY corner).toInside

include size

/-- Every read of the branches is inside the raw image. -/
theorem bayerLoads_colours {x y : Int} (insideX : 0 ≤ x ∧ x < width)
    (insideY : 0 ≤ y ∧ y < height) : ∃ loads, bayerLoads width height x y = some loads ∧
      loadColours src loads = some (siteColours src width height x y) := by
  have red := (redSite_feeds evenWidth evenHeight insideX insideY).toInside.load_value size
  have green := (greenSite_feeds evenWidth evenHeight insideX insideY).toInside.load_value size
  have other := (otherSite_feeds evenWidth evenHeight insideX insideY).toInside.load_value size
  have blue := (blueSite_inside evenWidth evenHeight insideX insideY).load_value size
  rcases bayerLoads_sites evenWidth evenHeight insideX insideY with loads | loads
  · refine ⟨_, loads, ?_⟩
    simp [loadColours, red, green, other, blue, siteColours]
  · refine ⟨_, loads, ?_⟩
    simp [loadColours, red, green, other, blue, siteColours, average_comm]

theorem bayerPixel_writes {x y : Nat} (insideX : x < width.toNat) (insideY : y < height.toNat)
    (colours : Colours) {image : Array UInt16} (fits : image.size = (width * height).toNat) :
    ∃ next, bayerPixel src width height x y (colours, image) = some (next,
      image.setIfInBounds (y * width.toNat + x) (sitePixel src width height x y)) := by
  obtain ⟨loads, branch, loaded⟩ := bayerLoads_colours evenWidth evenHeight size
    (show (0 : Int) ≤ x ∧ x < width by omega) (show (0 : Int) ≤ y ∧ y < height by omega)
  have index := pixel_index (show 0 ≤ width by omega) x y
  have inside := pixel_inside insideX insideY
  rw [← fits] at inside
  refine ⟨siteColours src width height x y, ?_⟩
  have stored : store image (y * width + x) (sitePixel src width height x y) =
      some (image.setIfInBounds (y * width.toNat + x) (sitePixel src width height x y)) := by
    rw [store, index, Int.toNat_natCast, if_pos ⟨Int.natCast_nonneg _, inside⟩]
  rw [bayerPixel, branch]
  simp only [loaded, Option.bind_eq_bind, Option.bind_some]
  rw [← sitePixel, stored]
  rfl

/-- The first pixels are written, after so many passes. -/
def Written (width height : Int) (src : Array UInt8) (count : Nat)
    (state : Option (Colours × Array UInt16)) : Prop :=
  ∃ colours image, state = some (colours, image) ∧ image.size = (width * height).toNat ∧
    ∀ index, index < count → image[index]? = some (sitePixel src width height
      ((index % width.toNat : Nat) : Int) ((index / width.toNat : Nat) : Int))

theorem Written.step {x y : Nat} (insideX : x < width.toNat) (insideY : y < height.toNat)
    {state : Option (Colours × Array UInt16)}
    (written : Written width height src (y * width.toNat + x) state) :
    Written width height src (y * width.toNat + x + 1)
      (state.bind (bayerPixel src width height x y)) := by
  obtain ⟨colours, image, rfl, fits, before⟩ := written
  obtain ⟨next, pixel⟩ := bayerPixel_writes evenWidth evenHeight size insideX insideY colours fits
  refine ⟨next, _, pixel, by simpa using fits, ?_⟩
  intro index below
  rcases Nat.lt_succ_iff_lt_or_eq.mp below with earlier | rfl
  · rw [Array.getElem?_setIfInBounds_ne (by omega), before index earlier]
  · obtain ⟨column, row⟩ := pixel_place insideX y
    have inside := pixel_inside insideX insideY
    rw [column, row, Array.getElem?_setIfInBounds_self_of_lt (by omega)]

/-- The conversion returns an image, and each of its pixels has the colours of its sites. -/
theorem bayer2rgb24Bingo_written {dst : Array UInt16} (fits : dst.size = (width * height).toNat) :
    ∃ image, bayer2rgb24Bingo dst src width height = some image ∧
      image.size = (width * height).toNat ∧ ∀ x y : Int, 0 ≤ x ∧ x < width → 0 ≤ y ∧ y < height →
        image[(y * width + x).toNat]? = some (sitePixel src width height x y) := by
  have start : Written width height src 0 (some (⟨0, 0, 0⟩, dst)) := ⟨_, _, rfl, fits, by omega⟩
  obtain ⟨colours, image, result, size, pixels⟩ := loop_rows (Written width height src) width.toNat
    height.toNat start
    fun x y state insideX insideY written =>
      written.step evenWidth evenHeight size insideX insideY
  refine ⟨image, by rw [bayer2rgb24Bingo, result]; rfl, size, ?_⟩
  intro x y insideX insideY
  lift x to Nat using insideX.1
  lift y to Nat using insideY.1
  obtain ⟨column, row⟩ := pixel_place (show x < width.toNat by omega) y
  have before := pixel_before (show x < width.toNat by omega) (show y < height.toNat by omega)
  rw [pixel_index (by omega), Int.toNat_natCast, pixels _ before, column, row]

end Conversion

/-- Each image gives the pixel the red of one red site, the blue of one blue site, and the average
green of two green sites. -/
def Demosaiced (width height x y : Int) : Prop :=
  ∃ red green other blue : Site, red.Feeds width height x y .red ∧
    green.Feeds width height x y .green ∧ other.Feeds width height x y .green ∧
    blue.Feeds width height x y .blue ∧ green ≠ other ∧
    ∀ (dst : Array UInt16) (src : Array UInt8) (image : Array UInt16),
      dst.size = (width * height).toNat → src.size = (width * height).toNat →
      bayer2rgb24Bingo dst src width height = some image →
      image[(y * width + x).toNat]? = some (rgb24_2_565 (red.value width src)
        (average (green.value width src) (other.value width src)) (blue.value width src))

/-- The lowest bit of a pixel is a bit of its blue. -/
theorem rgb24_2_565_blue (red green blue : UInt8) :
    (rgb24_2_565 red green blue).toNat.testBit 0 = blue.toNat.testBit 3 := by
  simp [rgb24_2_565]

/-- This raw image is bright at one site only. -/
def spot (width height : Int) (site : Site) : Array UInt8 :=
  (Array.replicate (width * height).toNat 0).setIfInBounds (site.index width).toNat 255

theorem spot_value {width height : Int} {site bright : Site} (inside : site.Inside width height)
    (brightInside : bright.Inside width height) :
    site.value width (spot width height bright) = if site = bright then 255 else 0 := by
  have index := inside.index_inside.2
  by_cases same : site = bright
  · subst same
    simp [Site.value, spot, Array.getD, index]
  · have apart : (bright.index width).toNat ≠ (site.index width).toNat :=
      fun equal => same (inside.index_inj brightInside equal.symm)
    rw [Site.value, spot, Array.getD_eq_getD_getElem?, Array.getElem?_setIfInBounds_ne apart,
      if_neg same, Array.getElem?_replicate, if_pos index, Option.getD_some]

section Corner
variable {width height : Int} (evenWidth : width % 2 = 0) (evenHeight : height % 2 = 0)
include evenWidth evenHeight

theorem demosaiced_elsewhere {x y : Int} (insideX : 0 ≤ x ∧ x < width)
    (insideY : 0 ≤ y ∧ y < height) (elsewhere : ¬ (x = width - 1 ∧ y = height - 1)) :
    Demosaiced width height x y := by
  refine ⟨_, _, _, _, redSite_feeds evenWidth evenHeight insideX insideY,
    greenSite_feeds evenWidth evenHeight insideX insideY,
    otherSite_feeds evenWidth evenHeight insideX insideY,
    blueSite_feeds evenWidth evenHeight insideX insideY elsewhere, ?_, ?_⟩
  · -- The sites are in an even and an odd row.
    intro same
    have rows := congrArg Site.y same
    simp only [greenSite, otherSite, evenRow, oddRow] at rows
    grind
  · intro dst src image fits size result
    obtain ⟨_, result', -, pixels⟩ := bayer2rgb24Bingo_written evenWidth evenHeight size fits
    obtain rfl : _ = image := by simpa [result] using result'.symm
    exact pixels x y insideX insideY

/-- The last pixel takes its blue from a green site. -/
theorem corner_not_demosaiced (wide : 2 ≤ width) (high : 2 ≤ height) :
    ¬ Demosaiced width height (width - 1) (height - 1) := by
  rintro ⟨red, green, other, blue, -, -, -, feeds, -, conversion⟩
  have insideX : 0 ≤ width - 1 ∧ width - 1 < width := by omega
  have insideY : 0 ≤ height - 1 ∧ height - 1 < height := by omega
  have bright := greenSite_feeds evenWidth evenHeight insideX insideY
  -- The image is bright at the green site that the code takes for blue.
  let src := spot width height (greenSite height (width - 1) (height - 1))
  have size : src.size = (width * height).toNat := by simp [src, spot]
  let dst := Array.replicate (width * height).toNat (0 : UInt16)
  have fits : dst.size = (width * height).toNat := by simp [dst]
  obtain ⟨image, result, -, pixels⟩ := bayer2rgb24Bingo_written evenWidth evenHeight size fits
  have code := pixels (width - 1) (height - 1) insideX insideY
  rw [conversion dst src image fits size result, Option.some_inj] at code
  have bits := congrArg (fun pixel => pixel.toNat.testBit 0) code
  simp only [sitePixel, siteColours, rgb24_2_565_blue, blueSite, and_self, if_true] at bits
  rw [spot_value feeds.toInside bright.toInside, spot_value bright.toInside bright.toInside,
    if_neg, if_pos rfl] at bits
  · exact absurd bits (by decide)
  · rintro rfl
    exact absurd (feeds.filter.symm.trans bright.filter) (by decide)

end Corner

theorem bayer2rgb24Bingo_demosaics (width height : Int) (wide : 2 ≤ width) (high : 2 ≤ height)
    (evenWidth : width % 2 = 0) (evenHeight : height % 2 = 0) :
    (∀ (dst : Array UInt16) (src : Array UInt8), dst.size = (width * height).toNat →
      src.size = (width * height).toNat → ∃ image,
        bayer2rgb24Bingo dst src width height = some image ∧
          image.size = (width * height).toNat) ∧
    ∀ x y, 0 ≤ x ∧ x < width → 0 ≤ y ∧ y < height →
      (Demosaiced width height x y ↔ ¬ (x = width - 1 ∧ y = height - 1)) := by
  constructor
  · intro dst src fits size
    obtain ⟨image, result, kept, -⟩ := bayer2rgb24Bingo_written evenWidth evenHeight size fits
    exact ⟨image, result, kept⟩
  · intro x y insideX insideY
    constructor
    · rintro demosaiced ⟨rfl, rfl⟩
      exact corner_not_demosaiced evenWidth evenHeight wide high demosaiced
    · exact demosaiced_elsewhere evenWidth evenHeight insideX insideY

theorem bayer2rgb24Bingo_demosaics_small : Demosaiced 2 2 0 1 ∧ ¬ Demosaiced 2 2 1 1 := by
  have pixels := (bayer2rgb24Bingo_demosaics 2 2 (by decide) (by decide) (by decide)
    (by decide)).2
  exact ⟨(pixels 0 1 (by decide) (by decide)).mpr (by decide),
    fun demosaiced => (pixels 1 1 (by decide) (by decide)).mp demosaiced (by decide)⟩

/-- The raw image has one bright green byte, and the last pixel shows it as blue. -/
theorem bayer2rgb24Bingo_corner :
    bayer2rgb24Bingo (Array.replicate 4 0) #[255, 0, 0, 0] 2 2 =
        some #[0x3E0, 0x3E0, 0x3E0, 0x3FF] ∧
      ¬ ∀ width height x y, 2 ≤ width → 2 ≤ height → width % 2 = 0 → height % 2 = 0 →
        0 ≤ x ∧ x < width → 0 ≤ y ∧ y < height → Demosaiced width height x y := by
  refine ⟨by decide +kernel, ?_⟩
  intro demosaiced
  exact corner_not_demosaiced (by decide) (by decide) (by decide) (by decide)
    (demosaiced 2 2 1 1 (by decide) (by decide) (by decide) (by decide) (by decide) (by decide))

end NnpCamera.Sensor
