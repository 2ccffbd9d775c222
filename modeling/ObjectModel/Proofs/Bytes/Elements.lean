import Mathlib.Algebra.Ring.Int.Defs
import ObjectModel.Proofs.Bytes.Bounds

/-!
Contract: an element is read as it was put, and leaves its neighbours alone.

The bytes that are replaced determine the buffer afterwards (`Buffer.Replaces.unique`), and bytes
that lie apart are replaced in any order (`Buffer.Replaces.comm`). Between values and patterns
nothing is lost (`Element.ofPattern_toPattern`, `Element.toPattern_ofPattern`), so what holds of
bytes holds of elements.

Halves are read and put through the binary32 numbers, which rounds them. Only where they lie is
known here.
-/

namespace ObjectModel

/-! ### Values -/

/-- A number of this many bits, read in two's complement. -/
def twosComplement (bits : Nat) (number : Int) : Int :=
  if 2 * number < 2 ^ bits then number else number - 2 ^ bits

theorem toInt_eq_twosComplement {bits : Nat} (pattern : BitVec bits) :
    pattern.toInt = twosComplement bits pattern.toNat := by
  have cast : ((2 ^ bits : Nat) : Int) = 2 ^ bits := Int.natCast_pow 2 bits
  rw [BitVec.toInt_eq_toNat_cond, twosComplement, cast]
  split <;> rename_i isSmall
  · rw [if_pos (by omega)]
  · rw [if_neg (by omega)]

namespace Element

/-- The values that an element has room for: integers of its width, and encodings of any kind. -/
def Admits : (element : Element) → element.Value → Prop
  | .int8, value => -2 ^ 7 ≤ value ∧ value < 2 ^ 7
  | .uint8, value => 0 ≤ value ∧ value < 2 ^ 8
  | .int16, value => -2 ^ 15 ≤ value ∧ value < 2 ^ 15
  | .uint16, value => 0 ≤ value ∧ value < 2 ^ 16
  | .int32, value => -2 ^ 31 ≤ value ∧ value < 2 ^ 31
  | .uint32, value => 0 ≤ value ∧ value < 2 ^ 32
  | .int64, value => -2 ^ 63 ≤ value ∧ value < 2 ^ 63
  | .float16, _ | .float32, _ | .float64, _ => True

/-- The bytes of a value, the least significant one first. -/
def bytes (element : Element) (value : element.Value) : List UInt8 :=
  Bytes.ofNat element.width (element.toPattern value).toNat

private theorem toNat_ofInt {bits : Nat} {value : Int} (notNegative : 0 ≤ value)
    (below : value < 2 ^ bits) : ((BitVec.ofInt bits value).toNat : Int) = value := by
  have cast : ((2 ^ bits : Nat) : Int) = 2 ^ bits := Int.natCast_pow 2 bits
  rw [BitVec.toNat_ofInt, cast, Int.emod_eq_of_lt notNegative below,
    Int.toNat_of_nonneg notNegative]

/-- A value that the element has room for is that of its pattern. -/
theorem ofPattern_toPattern {element : Element} (notHalf : element ≠ .float16)
    {value : element.Value} (admitted : element.Admits value) :
    element.ofPattern (element.toPattern value) = value := by
  cases element with
  | int8 | int16 | int32 | int64 =>
      exact BitVec.toInt_ofInt_eq_self (by decide) admitted.1 admitted.2
  | uint8 | uint16 | uint32 => exact toNat_ofInt admitted.1 admitted.2
  | float16 => contradiction
  | float32 | float64 => rfl

theorem admits_ofPattern (element : Element) (pattern : BitVec (8 * element.width)) :
    element.Admits (element.ofPattern pattern) := by
  cases element with
  | int8 | int16 | int32 | int64 => exact ⟨BitVec.le_toInt pattern, BitVec.toInt_lt⟩
  | uint8 | uint16 | uint32 => exact ⟨Int.natCast_nonneg _, Int.ofNat_lt.mpr pattern.isLt⟩
  | float16 | float32 | float64 => trivial

/-- Every pattern is that of its value. -/
theorem toPattern_ofPattern {element : Element} (notHalf : element ≠ .float16)
    (pattern : BitVec (8 * element.width)) :
    element.toPattern (element.ofPattern pattern) = pattern := by
  cases element with
  | int8 | int16 | int32 | int64 => exact BitVec.ofInt_toInt
  | uint8 | uint16 | uint32 =>
      exact (BitVec.ofInt_natCast _ _).trans ((BitVec.ofNat_toNat _ _).trans (BitVec.setWidth_eq _))
  | float16 => contradiction
  | float32 | float64 => rfl

end Element

/-! ### Orders -/

namespace ByteOrder

/-- The order in which the bytes stand the other way round. -/
def opposite : ByteOrder → ByteOrder
  | .little | .native => .big
  | .big => .little

theorem arrange_opposite (order : ByteOrder) (bytes : List UInt8) :
    order.opposite.arrange bytes = (order.arrange bytes).reverse := by
  cases order <;> simp [opposite, arrange]

/-- The bytes of a pattern that was read are those that it was read from. -/
theorem ofNat_read (order : ByteOrder) {width : Nat} {bytes : List UInt8}
    (length_eq : bytes.length = width) :
    Bytes.ofNat width (order.read width bytes).toNat = order.arrange bytes := by
  subst length_eq
  have written := congrArg order.arrange (order.write_read bytes)
  rwa [write, arrange_arrange] at written

end ByteOrder

/-! ### Bytes that are replaced -/

/-- Elements that have no byte in common. -/
def Place.Apart (place : Place) (width : Nat) (other : Place) (otherWidth : Nat) : Prop :=
  place.exactStart + width ≤ other.exactStart ∨ other.exactStart + otherWidth ≤ place.exactStart

/-- Elements of different indices, with a stride that has room for each of them. -/
structure Place.IsBeside (place : Place) (width : Nat) (other : Place) (otherWidth : Nat) :
    Prop where
  offset_eq : other.offset = place.offset
  stride_eq : other.stride = place.stride
  index_ne : other.index ≠ place.index
  width_le : width ≤ place.stride.toNat
  otherWidth_le : otherWidth ≤ place.stride.toNat

theorem Place.IsBeside.apart {place other : Place} {width otherWidth : Nat}
    (beside : place.IsBeside width other otherWidth) : place.Apart width other otherWidth := by
  have index_ne : other.index.toNat ≠ place.index.toNat :=
    fun same => beside.index_ne (UInt64.toNat_inj.mp same)
  have width_le := beside.width_le
  have otherWidth_le := beside.otherWidth_le
  unfold Apart exactStart
  rw [beside.offset_eq, beside.stride_eq]
  rcases Nat.lt_or_gt_of_ne index_ne with before | behind
  · right
    have room := Nat.mul_le_mul_right place.stride.toNat before
    rw [Nat.succ_mul] at room
    omega
  · left
    have room := Nat.mul_le_mul_right place.stride.toNat behind
    rw [Nat.succ_mul] at room
    omega

namespace Buffer

theorem ext_bytes {left right : Buffer} (same : left.bytes = right.bytes) : left = right := by
  cases left
  cases right
  cases same
  rfl

section Replaces

variable {before after : Buffer} {start : Nat} {bytes : List UInt8}

/-- The buffer afterwards has nothing that is not known. -/
theorem Replaces.unique (replaces : before.Replaces start bytes after) {after' : Buffer}
    (replaces' : before.Replaces start bytes after') : after' = after := by
  apply ext_bytes
  apply List.ext_getElem?
  intro position
  by_cases inside : start ≤ position ∧ position < start + bytes.length
  · have here : start + (position - start) = position := by omega
    have held := replaces.holds (position - start) (by omega)
    have held' := replaces'.holds (position - start) (by omega)
    rw [here] at held held'
    rw [held, held']
  · rw [replaces.outside position (by omega), replaces'.outside position (by omega)]

/-- Bytes replaced by themselves. -/
theorem Holds.replaces (holds : before.Holds start bytes) : before.Replaces start bytes before :=
  ⟨rfl, holds, fun _ _ => rfl⟩

variable {start' : Nat} {bytes' : List UInt8}

/-- Bytes that are apart from those replaced are still there, or still not. -/
theorem Replaces.holds_iff (replaces : before.Replaces start bytes after)
    (apart : start + bytes.length ≤ start' ∨ start' + bytes'.length ≤ start) :
    after.Holds start' bytes' ↔ before.Holds start' bytes' := by
  refine forall₂_congr fun position inside => ?_
  rw [replaces.outside (start' + position) (by omega)]

/-- Bytes that are apart are replaced in any order. -/
theorem Replaces.comm (apart : start + bytes.length ≤ start' ∨ start' + bytes'.length ≤ start)
    {first second both both' : Buffer} (replaces : before.Replaces start bytes first)
    (then' : first.Replaces start' bytes' both) (replaces' : before.Replaces start' bytes' second)
    (then'' : second.Replaces start bytes both') : both' = both := by
  suffices last : second.Replaces start bytes both from last.unique then''
  refine ⟨?_, ?_, ?_⟩
  · rw [then'.length_eq, replaces.length_eq, replaces'.length_eq]
  · exact (then'.holds_iff apart.symm).mpr replaces.holds
  · intro position outside
    by_cases inside : start' ≤ position ∧ position < start' + bytes'.length
    · have here : start' + (position - start') = position := by omega
      have held := then'.holds (position - start') (by omega)
      have held' := replaces'.holds (position - start') (by omega)
      rw [here] at held held'
      rw [held, held']
    · rw [then'.outside position (by omega), replaces.outside position outside,
        replaces'.outside position (by omega)]

end Replaces

/-! ### Loads and stores -/

section Access

variable {buffer : Buffer} {element : Element} {place : Place}
  (fits : place.exactStart + element.width ≤ buffer.length) (order : ByteOrder)

include fits

/-- A load gives the value of the bytes that are there. -/
theorem get_of_holds {bytes : List UInt8} (holds : buffer.Holds place.exactStart bytes)
    (length_eq : bytes.length = element.width) :
    buffer.get order element place = .ok (element.ofPattern (order.read element.width bytes)) := by
  obtain ⟨slice, sliceLength⟩ := buffer.holds_slice fits
  have same : (buffer.bytes.drop place.exactStart).take element.width = bytes := by
    apply List.ext_getElem?
    intro position
    by_cases inside : position < element.width
    · rw [← slice position (sliceLength.symm ▸ inside), holds position (length_eq.symm ▸ inside)]
    · rw [List.getElem?_eq_none (by omega), List.getElem?_eq_none (by omega)]
  have checked := buffer.start?_eq place element.width_lt
  rw [if_pos fits] at checked
  simp only [get, load, checked, ← same]
  rfl

theorem put_replaces (value : element.Value) :
    ∃ after, buffer.put order element place value = .ok after ∧
      buffer.Replaces place.exactStart (order.write (element.toPattern value)) after :=
  buffer.store_replaces place element.width_lt fits order (element.toPattern value)

/-- The value that is in the buffer, and its bytes. -/
theorem get_reads : ∃ bytes, bytes.length = element.width ∧
    buffer.Holds place.exactStart bytes ∧
    buffer.get order element place = .ok (element.ofPattern (order.read element.width bytes)) := by
  obtain ⟨holds, length_eq⟩ := buffer.holds_slice fits
  exact ⟨_, length_eq, holds, get_of_holds fits order holds length_eq⟩

/-- A value that was put there is read. -/
theorem get_put (notHalf : element ≠ .float16) {value : element.Value}
    (admitted : element.Admits value) {after : Buffer}
    (replaces : buffer.Replaces place.exactStart (order.write (element.toPattern value)) after) :
    after.get order element place = .ok value := by
  have stillFits : place.exactStart + element.width ≤ after.length :=
    replaces.length_eq.symm ▸ fits
  rw [get_of_holds stillFits order replaces.holds (order.length_write _), order.read_write,
    Element.ofPattern_toPattern notHalf admitted]

/-- A value that was read is put where it is already. -/
theorem put_get (notHalf : element ≠ .float16) {value : element.Value}
    (reads : buffer.get order element place = .ok value) :
    buffer.put order element place value = .ok buffer := by
  obtain ⟨bytes, length_eq, holds, reads'⟩ := get_reads fits order
  rw [reads] at reads'
  cases reads'
  obtain ⟨after, stored, replaces⟩ :=
    put_replaces fits order (element.ofPattern (order.read element.width bytes))
  have written : order.write (order.read element.width bytes) = bytes := by
    rw [← length_eq]
    exact order.write_read bytes
  rw [Element.toPattern_ofPattern notHalf, written] at replaces
  rw [stored, holds.replaces.unique replaces]

/-- In the opposite order the same bytes are read the other way round. -/
theorem get_opposite (notHalf : element ≠ .float16) {value : element.Value}
    (reads : buffer.get order element place = .ok value) :
    ∃ turned, buffer.get order.opposite element place = .ok turned ∧ element.Admits turned ∧
      element.bytes turned = (element.bytes value).reverse := by
  obtain ⟨bytes, length_eq, holds, reads'⟩ := get_reads fits order
  rw [reads] at reads'
  cases reads'
  refine ⟨_, get_of_holds fits order.opposite holds length_eq, element.admits_ofPattern _, ?_⟩
  simp only [Element.bytes, Element.toPattern_ofPattern notHalf]
  rw [order.ofNat_read length_eq, order.opposite.ofNat_read length_eq, order.arrange_opposite]

/-- What is put apart from an element is not seen where the element is read. -/
theorem get_apart {start : Nat} {bytes : List UInt8} {after : Buffer}
    (replaces : buffer.Replaces start bytes after)
    (apart : start + bytes.length ≤ place.exactStart ∨
      place.exactStart + element.width ≤ start) :
    after.get order element place = buffer.get order element place := by
  obtain ⟨inPlace, length_eq, holds, reads⟩ := get_reads fits order
  have stillFits : place.exactStart + element.width ≤ after.length :=
    replaces.length_eq.symm ▸ fits
  rw [reads, get_of_holds stillFits order _ length_eq]
  exact (replaces.holds_iff (length_eq.symm ▸ apart)).mpr holds

end Access

/-- Signed integers are the unsigned ones of the same width in two's complement. Of eight bytes,
the unsigned reading is the encoding of a float. -/
structure ReadsSigned (buffer : Buffer) (order : ByteOrder) (place : Place) : Prop where
  int8 : buffer.get order .int8 place = (buffer.get order .uint8 place).map (twosComplement 8)
  int16 : buffer.get order .int16 place =
    (buffer.get order .uint16 place).map (twosComplement 16)
  int32 : buffer.get order .int32 place =
    (buffer.get order .uint32 place).map (twosComplement 32)
  int64 : buffer.get order .int64 place =
    (buffer.get order .float64 place).map fun encoding => twosComplement 64 encoding.toNat

theorem get_eq_map (buffer : Buffer) (order : ByteOrder) (element : Element) (place : Place) :
    buffer.get order element place =
      (buffer.load order element.width place).map element.ofPattern := by
  unfold get
  cases buffer.load order element.width place <;> rfl

theorem readsSigned (buffer : Buffer) (order : ByteOrder) (place : Place) :
    buffer.ReadsSigned order place := by
  have signed : ∀ {width : Nat} {α : Type} {unsigned : BitVec (8 * width) → α} {change : α → Int}
      (loaded : Except OutOfBounds (BitVec (8 * width))),
      (∀ pattern, pattern.toInt = change (unsigned pattern)) →
        loaded.map BitVec.toInt = (loaded.map unsigned).map change := by
    intro width α unsigned change loaded same
    cases loaded with
    | error fault => rfl
    | ok pattern => exact congrArg Except.ok (same pattern)
  constructor <;> rw [get_eq_map, get_eq_map] <;> exact signed _ toInt_eq_twosComplement

/-- What happens at one place of a buffer that has room for the element there. A value that is
put is read again, and putting what was read changes nothing. No byte beside the element changes.
In the opposite order the bytes of a value are reversed, signed integers are unsigned ones in
two's complement, and the order of the host is the little one. Elements that have no byte in
common, such as those of different indices with a stride that is wide enough, are put in any
order, and reading the one does not see the other. -/
theorem put_local (buffer : Buffer) (order : ByteOrder) {element : Element}
    (notHalf : element ≠ .float16) {place : Place}
    (fits : place.exactStart + element.width ≤ buffer.length) {value : element.Value}
    (admitted : element.Admits value) :
    ∃ read after, buffer.get order element place = .ok read ∧ element.Admits read ∧
      buffer.put order element place value = .ok after ∧
      after.get order element place = .ok value ∧
      buffer.put order element place read = .ok buffer ∧
      (after.length = buffer.length ∧ ∀ position,
        position < place.exactStart ∨ place.exactStart + element.width ≤ position →
          after.bytes[position]? = buffer.bytes[position]?) ∧
      (∃ turned, buffer.get order.opposite element place = .ok turned ∧ element.Admits turned ∧
        element.bytes turned = (element.bytes read).reverse) ∧
      buffer.ReadsSigned order place ∧
      (buffer.get .native element place = buffer.get .little element place ∧
        buffer.put .native element place value = buffer.put .little element place value) ∧
      ∀ (order' : ByteOrder) (other : Element) (place' : Place) (value' : other.Value),
        place'.exactStart + other.width ≤ buffer.length →
        place.Apart element.width place' other.width ∨
          place.IsBeside element.width place' other.width →
        ∃ after' both, buffer.put order' other place' value' = .ok after' ∧
          after.put order' other place' value' = .ok both ∧
          after'.put order element place value = .ok both ∧
          after.get order' other place' = buffer.get order' other place' ∧
          after'.get order element place = buffer.get order element place := by
  obtain ⟨bytes, -, -, reads⟩ := get_reads fits order
  obtain ⟨after, stored, replaces⟩ := put_replaces fits order value
  have length_eq : (order.write (element.toPattern value)).length = element.width :=
    order.length_write _
  refine ⟨_, after, reads, element.admits_ofPattern _, stored,
    get_put fits order notHalf admitted replaces, put_get fits order notHalf reads,
    ⟨replaces.length_eq, fun position outside => ?_⟩, get_opposite fits order notHalf reads,
    buffer.readsSigned order place, ⟨rfl, rfl⟩, ?_⟩
  · exact replaces.outside position (length_eq.symm ▸ outside)
  · intro order' other place' value' fits' apart
    have apart : place.Apart element.width place' other.width :=
      apart.elim id Place.IsBeside.apart
    have length_eq' : (order'.write (other.toPattern value')).length = other.width :=
      order'.length_write _
    obtain ⟨after', stored', replaces'⟩ := put_replaces fits' order' value'
    have fitsAfter : place'.exactStart + other.width ≤ after.length :=
      replaces.length_eq.symm ▸ fits'
    have fitsAfter' : place.exactStart + element.width ≤ after'.length :=
      replaces'.length_eq.symm ▸ fits
    obtain ⟨both, storedBoth, then'⟩ := put_replaces fitsAfter order' value'
    obtain ⟨both', storedBoth', then''⟩ := put_replaces fitsAfter' order value
    unfold Place.Apart at apart
    rw [← length_eq'] at apart
    obtain rfl := Replaces.comm (length_eq.symm ▸ apart) replaces then' replaces' then''
    rw [length_eq'] at apart
    refine ⟨after', both', stored', storedBoth, storedBoth', ?_, ?_⟩
    · exact get_apart fits' order' replaces (length_eq.symm ▸ apart)
    · exact get_apart fits order replaces' (length_eq'.symm ▸ apart.symm)

/-- Two neighbours that are put in different orders. -/
theorem put_local_neighbours :
    let buffer : Buffer := ⟨[1, 2, 3, 4], by decide⟩
    let place : Place := ⟨0, 0, 2⟩
    let other : Place := ⟨0, 1, 2⟩
    place.exactStart + Element.int16.width ≤ buffer.length ∧ Element.int16.Admits (-2 : Int) ∧
      place.IsBeside Element.int16.width other Element.uint16.width ∧
      ∃ after both, buffer.put .big .int16 place (-2 : Int) = .ok after ∧
        after.get .big .int16 place = .ok (-2 : Int) ∧
        after.put .little .uint16 other (5 : Int) = .ok both ∧
        after.get .little .uint16 other = buffer.get .little .uint16 other := by
  intro buffer place other
  have fits : place.exactStart + Element.int16.width ≤ buffer.length := by decide
  have admitted : Element.int16.Admits (-2 : Int) := by
    show (-2 ^ 15 : Int) ≤ -2 ∧ (-2 : Int) < 2 ^ 15
    decide
  have beside : place.IsBeside Element.int16.width other Element.uint16.width :=
    ⟨rfl, rfl, by decide, by decide, by decide⟩
  obtain ⟨-, after, -, -, stored, reads, -, -, -, -, -, others⟩ :=
    put_local buffer .big (by decide) fits admitted
  obtain ⟨-, both, -, storedBoth, -, unseen, -⟩ :=
    others .little .uint16 other (5 : Int) (by decide) (.inr beside)
  exact ⟨fits, admitted, beside, after, both, stored, reads, storedBoth, unseen⟩

end Buffer

end ObjectModel
