import ObjectModel.Bytes.Access

/-!
Contract: an access touches the bytes of its element and no others.

The start and the end of an element are reckoned in words of 64 bits that never wrap, so the
checks decide what holds of the exact numbers (`Buffer.start?_eq`), whatever the operands are. An
access in the buffer reads, or replaces, the bytes from the exact start on (`Buffer.Holds`,
`Buffer.Replaces`); any other is refused, names the start if it is a word, and leaves the buffer
as it is (`ByteAccess.run_bounds`).

Does not own: how the bytes of an element make up its value (`Bytes.Order`, `Bytes.Element`).
-/

namespace ObjectModel

/-! ### Words -/

namespace Word

theorem toNat_of_add? {left right sum : UInt64} (added : add? left right = some sum) :
    sum.toNat = left.toNat + right.toNat := by
  unfold add? at added
  split at added
  · rename_i fits
    cases added
    rw [UInt64.toNat_add, Nat.mod_eq_of_lt fits]
  · cases added

theorem toNat_of_mul? {left right product : UInt64} (multiplied : mul? left right = some product) :
    product.toNat = left.toNat * right.toNat := by
  unfold mul? at multiplied
  split at multiplied
  · rename_i fits
    cases multiplied
    rw [UInt64.toNat_mul, Nat.mod_eq_of_lt fits]
  · cases multiplied

theorem add?_eq_none_iff {left right : UInt64} :
    add? left right = none ↔ UInt64.size ≤ left.toNat + right.toNat := by
  unfold add?
  split <;> simp <;> omega

theorem mul?_eq_none_iff {left right : UInt64} :
    mul? left right = none ↔ UInt64.size ≤ left.toNat * right.toNat := by
  unfold mul?
  split <;> simp <;> omega

end Word

/-! ### Places -/

namespace Place

/-- Where the element lies, in numbers without a limit. -/
def exactStart (place : Place) : Nat :=
  place.offset.toNat + place.index.toNat * place.stride.toNat

/-- The words that are reckoned for an element of this width are exact. -/
structure IsExact (place : Place) (width : Nat) : Prop where
  product : ∀ distance, Word.mul? place.index place.stride = some distance →
    distance.toNat = place.index.toNat * place.stride.toNat
  start : ∀ start, place.start? = some start → start.toNat = place.exactStart
  stop : ∀ start stop, place.start? = some start →
    Word.add? start (UInt64.ofNat width) = some stop → stop.toNat = place.exactStart + width

theorem toNat_of_start? {place : Place} {start : UInt64} (found : place.start? = some start) :
    start.toNat = place.exactStart := by
  obtain ⟨distance, multiplied, added⟩ := Option.bind_eq_some_iff.mp found
  rw [Word.toNat_of_add? added, Word.toNat_of_mul? multiplied, Nat.add_comm, exactStart]

/-- The start is missing only if it is no word: the product alone is no larger. -/
theorem start?_eq_none_iff {place : Place} :
    place.start? = none ↔ UInt64.size ≤ place.exactStart := by
  unfold start? exactStart
  cases multiplied : Word.mul? place.index place.stride with
  | none =>
      have tooLarge := Word.mul?_eq_none_iff.mp multiplied
      simp
      omega
  | some distance =>
      have exact := Word.toNat_of_mul? multiplied
      show Word.add? distance place.offset = none ↔ _
      rw [Word.add?_eq_none_iff, exact, Nat.add_comm]

theorem isExact (place : Place) {width : Nat} (isWord : width < UInt64.size) :
    place.IsExact width where
  product := fun _ => Word.toNat_of_mul?
  start := fun _ => toNat_of_start?
  stop := by
    intro start stop found added
    rw [Word.toNat_of_add? added, toNat_of_start? found, UInt64.toNat_ofNat_of_lt' isWord]

end Place

/-! ### Buffers -/

namespace Buffer

/-- The bytes from `start` on are these. -/
def Holds (buffer : Buffer) (start : Nat) (bytes : List UInt8) : Prop :=
  ∀ position < bytes.length, buffer.bytes[start + position]? = bytes[position]?

/-- The bytes from `start` on are replaced by these, and no others are. -/
structure Replaces (before : Buffer) (start : Nat) (bytes : List UInt8) (after : Buffer) :
    Prop where
  length_eq : after.length = before.length
  holds : after.Holds start bytes
  outside : ∀ position, position < start ∨ start + bytes.length ≤ position →
    after.bytes[position]? = before.bytes[position]?

/-- What is reported of an access that does not lie in the buffer: its start, or the largest word
if that is no word. -/
def refusal (buffer : Buffer) (place : Place) (width : Nat) : OutOfBounds where
  offset := UInt64.ofNat
    (if place.exactStart < UInt64.size then place.exactStart else UInt64.size - 1)
  width := width
  length := buffer.length

variable (buffer : Buffer) (place : Place)

/-- The check in words is the check in exact numbers. -/
theorem start?_eq {width : Nat} (isWord : width < UInt64.size) :
    buffer.start? place width =
      if place.exactStart + width ≤ buffer.length then .ok place.exactStart
      else .error (buffer.refusal place width) := by
  have isAddressable : buffer.length < UInt64.size := buffer.isAddressable
  have width_eq : (UInt64.ofNat width).toNat = width := UInt64.toNat_ofNat_of_lt' isWord
  unfold start? refusal
  cases found : place.start? with
  | none =>
      have tooLarge := Place.start?_eq_none_iff.mp found
      rw [if_neg (by omega), if_neg (by omega)]
  | some start =>
      have start_eq := Place.toNat_of_start? found
      rw [← start_eq, if_pos start.toNat_lt_size, UInt64.ofNat_toNat]
      cases added : Word.add? start (UInt64.ofNat width) with
      | none =>
          have tooLarge := Word.add?_eq_none_iff.mp added
          simp only [added]
          rw [if_neg (by omega)]
      | some stop =>
          simp only [added, Word.toNat_of_add? added, width_eq]

/-- The bytes of an element in the buffer, none of which is missing. -/
theorem holds_slice {start width : Nat} (fits : start + width ≤ buffer.length) :
    buffer.Holds start ((buffer.bytes.drop start).take width) ∧
      ((buffer.bytes.drop start).take width).length = width := by
  have length_eq : ((buffer.bytes.drop start).take width).length = width := by
    unfold length at fits
    simp only [List.length_take, List.length_drop]
    omega
  refine ⟨fun position inside => ?_, length_eq⟩
  rw [length_eq] at inside
  rw [List.getElem?_take_of_lt inside, List.getElem?_drop]

theorem getElem?_overwrite {bytes replacement : List UInt8} {start : Nat}
    (fits : start + replacement.length ≤ bytes.length) (position : Nat) :
    (overwrite bytes start replacement)[position]? =
      if position < start then bytes[position]?
      else if position < start + replacement.length then replacement[position - start]?
      else bytes[position]? := by
  have whole : replacement.take (bytes.length - start) = replacement :=
    List.take_of_length_le (by omega)
  have started : (bytes.take start).length = start := List.length_take_of_le (by omega)
  rw [overwrite, whole, List.append_assoc]
  by_cases before : position < start
  · rw [if_pos before, List.getElem?_append_left (by omega), List.getElem?_take_of_lt before]
  rw [if_neg before, List.getElem?_append_right (by omega), started]
  by_cases inside : position < start + replacement.length
  · rw [if_pos inside, List.getElem?_append_left (by omega)]
  · rw [if_neg inside, List.getElem?_append_right (by omega), List.getElem?_drop]
    congr 1
    omega

/-- A store in the buffer replaces the bytes at the place by those of the pattern. -/
theorem store_replaces {width : Nat} (isWord : width < UInt64.size)
    (fits : place.exactStart + width ≤ buffer.length) (order : ByteOrder)
    (pattern : BitVec (8 * width)) :
    ∃ after, buffer.store order place pattern = .ok after ∧
      buffer.Replaces place.exactStart (order.write pattern) after := by
  have length_eq : (order.write pattern).length = width := order.length_write pattern
  have written : place.exactStart + (order.write pattern).length ≤ buffer.bytes.length :=
    length_eq.symm ▸ fits
  have checked := buffer.start?_eq place isWord
  rw [if_pos fits] at checked
  refine ⟨⟨overwrite buffer.bytes place.exactStart (order.write pattern), ?_⟩, ?_, ?_, ?_, ?_⟩
  · rw [length_overwrite]
    exact buffer.isAddressable
  · rw [store, checked]
    rfl
  · exact length_overwrite _ _ _
  · intro position inside
    rw [getElem?_overwrite written, if_neg (by omega), if_pos (by omega), Nat.add_sub_cancel_left]
  · intro position apart
    rw [getElem?_overwrite written]
    split
    · rfl
    · rw [if_neg (by omega)]

end Buffer

/-! ### Accesses -/

theorem Element.width_lt (element : Element) : element.width < UInt64.size := by
  cases element <;> decide

/-- An access succeeds exactly if its element lies in the buffer, with the start and the end
reckoned in numbers without a limit. A load then looks at the bytes of the element and a store
replaces them. Where the element does not lie in the buffer, both name its start, and the buffer
stays as it is. -/
theorem ByteAccess.run_bounds (buffer : Buffer) (order : ByteOrder) (element : Element)
    (place : Place) (value : element.Value) :
    let start := place.exactStart
    let load := (ByteAccess.get element place).run buffer order
    let store := (ByteAccess.put element place value).run buffer order
    place.IsExact element.width ∧
      if start + element.width ≤ buffer.length then
        ∃ bytes after, bytes.length = element.width ∧ buffer.Holds start bytes ∧
          load = (.ok (.value element (element.ofPattern (order.read element.width bytes))),
            buffer) ∧
          buffer.Replaces start (order.write (element.toPattern value)) after ∧
          store = (.ok (.buffer after.bytes), after)
      else
        ∃ fault : OutOfBounds,
          fault.offset.toNat = (if start < UInt64.size then start else UInt64.size - 1) ∧
          fault.width = element.width ∧ fault.length = buffer.length ∧
          load = (.error fault, buffer) ∧ store = (.error fault, buffer) := by
  intro start load store
  have checked := buffer.start?_eq place element.width_lt
  refine ⟨place.isExact element.width_lt, ?_⟩
  split
  · rename_i fits
    rw [if_pos fits] at checked
    obtain ⟨holds, length_eq⟩ := buffer.holds_slice fits
    obtain ⟨after, stored, replaces⟩ :=
      buffer.store_replaces place element.width_lt fits order (element.toPattern value)
    refine ⟨_, after, length_eq, holds, ?_, replaces, ?_⟩
    · simp only [load, run, Buffer.get, Buffer.load, checked]
      rfl
    · simp only [store, run, Buffer.put, stored]
  · rename_i outside
    rw [if_neg outside] at checked
    have isWord : (if start < UInt64.size then start else UInt64.size - 1) < UInt64.size := by
      split
      · assumption
      · decide
    refine ⟨buffer.refusal place element.width, UInt64.toNat_ofNat_of_lt' isWord, rfl, rfl, ?_, ?_⟩
    · simp only [load, run, Buffer.get, Buffer.load, checked]
      rfl
    · simp only [store, run, Buffer.put, Buffer.store, checked]
      rfl

/-- In words that wrap, this element would start with the buffer. -/
theorem ByteAccess.run_bounds_wrapping :
    let buffer : Buffer := ⟨[1, 2, 3, 4], by decide⟩
    let place : Place := ⟨0, 0x1000000000000000, 16⟩
    ¬place.exactStart + Element.int32.width ≤ buffer.length ∧
      ∃ fault : OutOfBounds, fault.offset.toNat = UInt64.size - 1 ∧ fault.length = 4 ∧
        (ByteAccess.put .int32 place (5 : Int)).run buffer .big = (.error fault, buffer) := by
  intro buffer place
  have outside : ¬place.exactStart + Element.int32.width ≤ buffer.length := by decide
  have bounds := run_bounds buffer .big .int32 place (5 : Int)
  simp only [if_neg outside] at bounds
  obtain ⟨-, fault, offset_eq, -, length_eq, -, refused⟩ := bounds
  have noWord : ¬place.exactStart < UInt64.size := by decide
  rw [if_neg noWord] at offset_eq
  exact ⟨outside, fault, offset_eq, length_eq, refused⟩

end ObjectModel
