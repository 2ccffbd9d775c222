import Mathlib.Algebra.Group.Nat.Defs
import Mathlib.Data.List.Induction
import ObjectModel.Proofs.Heap.KeyOrder

/-!
Contract: one name, one key.

A text is an array index exactly if it is the shortest decimal form of a number in range
(`Decimal.IsShortest`), and every number has one shortest form. So a key that is not a symbol is
known by its text, and survives as a value.

Does not own: the order of keys (`Heap.KeyOrder`).
-/

namespace ObjectModel

/-! ### Shortest decimal forms -/

namespace Decimal

/-- Digits alone that stand for the number, and as few of them as there can be. -/
structure IsShortest (text : String) (number : Nat) : Prop where
  denotes : numeral? text.toList = some number
  shortest : ∀ other : String, numeral? other.toList = some number → text.length ≤ other.length

theorem digit_bounds {digit : Char} (isDigit : digit.isDigit = true) :
    '0'.toNat ≤ digit.toNat ∧ digit.toNat < '0'.toNat + 10 := by
  obtain ⟨atLeast, atMost⟩ := Char.isDigit_iff_toNat.mp isDigit
  exact ⟨atLeast, Nat.lt_succ_of_le atMost⟩

theorem digit_lt_ten {digit : Char} (isDigit : digit.isDigit = true) :
    digit.toNat - '0'.toNat < 10 := by
  have bounds := digit_bounds isDigit
  omega

/-- A digit is written for its value. -/
theorem digitChar_value {digit : Char} (isDigit : digit.isDigit = true) :
    Nat.digitChar (digit.toNat - '0'.toNat) = digit := by
  have bounds := digit_bounds isDigit
  have zero : '0'.toNat = 48 := rfl
  apply Char.toNat_inj.mp
  rw [Nat.toNat_digitChar_of_lt_ten (digit_lt_ten isDigit)]
  omega

theorem digitsValue_lt {digits : List Char} (areDigits : ∀ digit ∈ digits, digit.isDigit = true) :
    digitsValue digits < 10 ^ digits.length := by
  induction digits using List.reverseRecOn with
  | nil => exact Nat.one_pos
  | append_singleton rest last inductionHypothesis =>
      have restBound := inductionHypothesis fun digit member =>
        areDigits digit (List.mem_append_left _ member)
      have lastBound := digit_lt_ten (areDigits last (by simp))
      rw [digitsValue, List.foldl_append, List.length_append, List.length_singleton, Nat.pow_succ]
      show appendDigit (digitsValue rest) last < _
      unfold appendDigit
      omega

/-- Digits behind a number that is not zero are its last ones. -/
theorem toDigits_append {value : Nat} (positive : 0 < value) {digits : List Char}
    (areDigits : ∀ digit ∈ digits, digit.isDigit = true) :
    Nat.toDigits 10 value ++ digits = Nat.toDigits 10 (digits.foldl appendDigit value) := by
  induction digits generalizing value with
  | nil => rw [List.append_nil, List.foldl_nil]
  | cons first rest inductionHypothesis =>
      have isDigit := areDigits first List.mem_cons_self
      have isSmall := digit_lt_ten isDigit
      have appended := Nat.toDigits_append_toDigits (by decide) positive isSmall
      rw [Nat.toDigits_of_lt_base isSmall, digitChar_value isDigit] at appended
      have grown : 0 < appendDigit value first := by
        unfold appendDigit
        omega
      rw [List.foldl_cons, ← inductionHypothesis grown fun digit member =>
        areDigits digit (List.mem_cons_of_mem _ member)]
      rw [List.append_cons, appended, appendDigit]

/-- Digits without a zero in front, but for the zero alone, are those of their value. -/
theorem eq_toDigits {digits : List Char} {number : Nat} (denotes : numeral? digits = some number)
    (noZero : digits.head? = some '0' → digits.length ≤ 1) : digits = Nat.toDigits 10 number := by
  obtain ⟨notEmpty, areDigits, rfl⟩ := numeral?_eq_some_iff.mp denotes
  cases digits with
  | nil => contradiction
  | cons first rest =>
      have isDigit := areDigits first List.mem_cons_self
      have isSmall := digit_lt_ten isDigit
      have start : appendDigit 0 first = first.toNat - '0'.toNat := by
        rw [appendDigit, Nat.mul_zero, Nat.zero_add]
      by_cases isZero : first = '0'
      · obtain rfl : rest = [] := by
          have atMostOne := noZero (by rw [isZero]; rfl)
          exact List.length_eq_zero_iff.mp (by simpa using atMostOne)
        subst isZero
        decide
      · have positive : 0 < first.toNat - '0'.toNat := by
          have bounds := digit_bounds isDigit
          have notZero : first.toNat ≠ '0'.toNat := fun same => isZero (Char.toNat_inj.mp same)
          omega
        have behind := toDigits_append positive fun digit member =>
          areDigits digit (List.mem_cons_of_mem first member)
        rw [Nat.toDigits_of_lt_base isSmall, digitChar_value isDigit] at behind
        rw [digitsValue, List.foldl_cons, start, ← behind]
        rfl

/-- A zero in front of other digits could be left out. -/
theorem IsShortest.noZero {text : String} {number : Nat} (isShortest : IsShortest text number)
    (head : text.toList.head? = some '0') : text.toList.length ≤ 1 := by
  by_contra long
  obtain ⟨notEmpty, areDigits, value⟩ := numeral?_eq_some_iff.mp isShortest.denotes
  obtain ⟨rest, split⟩ := List.head?_eq_some_iff.mp head
  rw [split] at long areDigits value
  have denotes : numeral? (String.ofList rest).toList = some number := by
    rw [String.toList_ofList]
    refine numeral?_eq_some_iff.mpr ⟨?_, fun digit member => ?_, value⟩
    · rintro rfl
      simp at long
    · exact areDigits digit (List.mem_cons_of_mem _ member)
  have shorter := isShortest.shortest _ denotes
  rw [← String.length_toList, ← String.length_toList, split, String.toList_ofList,
    List.length_cons] at shorter
  omega

theorem isShortest_toString (number : Nat) : IsShortest (toString number) number := by
  refine ⟨toList_toString number ▸ numeral?_toDigits number, fun other denotes => ?_⟩
  obtain ⟨notEmpty, areDigits, rfl⟩ := numeral?_eq_some_iff.mp denotes
  rw [← String.length_toList, ← String.length_toList, toList_toString]
  exact (Nat.length_toDigits_le_iff (by decide) (List.length_pos_iff.mpr notEmpty)).mpr
    (digitsValue_lt areDigits)

/-- Every number has one shortest form. -/
theorem isShortest_iff {text : String} {number : Nat} :
    IsShortest text number ↔ text = toString number := by
  constructor
  · intro isShortest
    rw [Nat.toString_eq_ofList_toDigits, ← eq_toDigits isShortest.denotes isShortest.noZero,
      String.ofList_toList]
  · rintro rfl
    exact isShortest_toString number

end Decimal

/-! ### Keys -/

theorem arrayIndex?_eq_some_iff {text : String} {number : Nat} :
    arrayIndex? text = some number ↔ number < indexLimit ∧ Decimal.IsShortest text number := by
  simp only [arrayIndex?, Bool.and_eq_true, decide_eq_true_eq]
  split
  · rename_i hasZero
    simp only [reduceCtorEq, false_iff, not_and]
    intro _ isShortest
    exact Nat.not_le.mpr hasZero.2 (isShortest.noZero hasZero.1)
  · rename_i noZero
    have noZero : text.toList.head? = some '0' → text.toList.length ≤ 1 := fun head =>
      Nat.not_lt.mp fun long => noZero ⟨head, long⟩
    rw [Decimal.numeralBelow?_eq, Option.filter_eq_some_iff, decide_eq_true_eq, and_comm]
    refine and_congr_right fun _ => ⟨fun denotes => ?_, Decimal.IsShortest.denotes⟩
    rw [Decimal.isShortest_iff, Nat.toString_eq_ofList_toDigits,
      ← Decimal.eq_toDigits denotes noZero, String.ofList_toList]

namespace PropertyKey

theorem ofString_eq_index_iff {text : String} {number : Nat} {inRange : number < indexLimit} :
    ofString text = .index number inRange ↔ Decimal.IsShortest text number := by
  have isIndex_iff : arrayIndex? text = some number ↔ Decimal.IsShortest text number :=
    arrayIndex?_eq_some_iff.trans (and_iff_right inRange)
  rw [← isIndex_iff, ofString]
  split <;> rename_i isIndex <;> simp [isIndex]

theorem ofString_eq_string {text : String} (notIndex : arrayIndex? text = none) :
    ofString text = .string text notIndex := by
  rw [ofString]
  split <;> rename_i isIndex
  · rw [notIndex] at isIndex
    contradiction
  · rfl

theorem text_ofString (text : String) : (ofString text).text = text := by
  cases isIndex : arrayIndex? text with
  | none => rw [ofString_eq_string isIndex, PropertyKey.text]
  | some number =>
      obtain ⟨inRange, isShortest⟩ := arrayIndex?_eq_some_iff.mp isIndex
      have made : ofString text = .index number inRange := ofString_eq_index_iff.mpr isShortest
      rw [made, PropertyKey.text, Decimal.isShortest_iff.mp isShortest]

/-- A key that is not a symbol is known by its text. -/
theorem ofString_text {key : PropertyKey} (notSymbol : key.isSymbol = false) :
    ofString key.text = key := by
  cases key with
  | index number inRange => exact ofString_eq_index_iff.mpr (Decimal.isShortest_toString number)
  | string name notIndex => exact ofString_eq_string notIndex
  | symbol token => contradiction

theorem text_inj {left right : PropertyKey} (leftNotSymbol : left.isSymbol = false)
    (rightNotSymbol : right.isSymbol = false) : left.text = right.text ↔ left = right := by
  refine ⟨fun same => ?_, congrArg text⟩
  rw [← ofString_text leftNotSymbol, same, ofString_text rightNotSymbol]

theorem ofNat_eq_ofString (number : Nat) : ofNat number = ofString (toString number) := by
  unfold ofNat
  split
  · exact (ofString_eq_index_iff.mpr (Decimal.isShortest_toString number)).symm
  · exact (ofString_eq_string _).symm

theorem ofValue?_toValue (key : PropertyKey) : ofValue? key.toValue = some key := by
  cases key with
  | index number inRange =>
      exact congrArg some (ofString_eq_index_iff.mpr (Decimal.isShortest_toString number))
  | string name notIndex => exact congrArg some (ofString_eq_string notIndex)
  | symbol token => rfl

theorem isSymbol_ofString (text : String) : (ofString text).isSymbol = false := by
  unfold ofString
  split <;> rfl

theorem toValue_eq_string {key : PropertyKey} (notSymbol : key.isSymbol = false) :
    key.toValue = .string key.text := by
  cases key with
  | index number inRange => rfl
  | string name notIndex => rfl
  | symbol token => contradiction

theorem toValue_of_ofValue? {value : Value} {key : PropertyKey} (read : ofValue? value = some key) :
    key.toValue = value := by
  cases value with
  | string name =>
      cases read
      rw [toValue_eq_string (isSymbol_ofString name), text_ofString]
  | symbol token =>
      cases read
      rfl
  | _ => contradiction

/-- Keys are canonical. A text is an array index exactly if it is the shortest decimal form of a
number up to `2 ^ 32 - 2`, and a string key otherwise; numbers make the key of their digits. A key
is the same after it was a value, and a value after it was a key, so a key that was handed to a
trap still names its property. Keys that are not symbols are equal exactly if their texts are, and
no object has two of them with one text. -/
theorem canonical :
    (∀ (text : String) (number : Nat),
      (∃ inRange, ofString text = .index number inRange) ↔
        number ≤ 2 ^ 32 - 2 ∧ Decimal.IsShortest text number) ∧
    (∀ text : String, (∃ notIndex, ofString text = .string text notIndex) ↔
      ∀ number ≤ 2 ^ 32 - 2, ¬Decimal.IsShortest text number) ∧
    (∀ number : Nat, Decimal.IsShortest (toString number) number ∧
      ofNat number = ofString (toString number)) ∧
    (∀ key : PropertyKey, ofValue? key.toValue = some key) ∧
    (∀ (value : Value) (key : PropertyKey), ofValue? value = some key → key.toValue = value) ∧
    (∀ left right : PropertyKey, left.isSymbol = false → right.isSymbol = false →
      (left = right ↔ left.text = right.text)) ∧
    (∀ heap : Heap, heap.Reachable → ∀ id : ObjectId,
      (((heap.ownKeys id).filter fun key => !key.isSymbol).map text).Nodup) ∧
    ∀ (heap : Heap) (id : ObjectId) (key : PropertyKey),
      (ofValue? key.toValue).bind (heap.getOwn id) = heap.getOwn id key := by
  have inRange_iff : ∀ number, number < indexLimit ↔ number ≤ 2 ^ 32 - 2 := by
    intro number
    have limit : indexLimit = 2 ^ 32 - 1 := rfl
    omega
  refine ⟨fun text number => ?_, fun text => ?_, fun number => ?_, ofValue?_toValue,
    fun value key => toValue_of_ofValue?, fun left right leftName rightName => ?_,
    fun heap reachable id => ?_, fun heap id key => ?_⟩
  · rw [← inRange_iff]
    constructor
    · rintro ⟨inRange, made⟩
      exact ⟨inRange, ofString_eq_index_iff.mp made⟩
    · rintro ⟨inRange, isShortest⟩
      exact ⟨inRange, ofString_eq_index_iff.mpr isShortest⟩
  · constructor
    · rintro ⟨notIndex, -⟩ number inRange isShortest
      have isIndex := arrayIndex?_eq_some_iff.mpr ⟨(inRange_iff number).mpr inRange, isShortest⟩
      rw [notIndex] at isIndex
      contradiction
    · intro noForm
      have notIndex : arrayIndex? text = none := by
        rw [Option.eq_none_iff_forall_ne_some]
        intro number isIndex
        obtain ⟨inRange, isShortest⟩ := arrayIndex?_eq_some_iff.mp isIndex
        exact noForm number ((inRange_iff number).mp inRange) isShortest
      exact ⟨notIndex, ofString_eq_string notIndex⟩
  · exact ⟨Decimal.isShortest_toString number, ofNat_eq_ofString number⟩
  · exact (text_inj leftName rightName).symm
  · refine List.Nodup.map_on ?_ ((reachable.wellFormed.nodup_ownKeys id).filter _)
    intro left leftMember right rightMember same
    have notSymbol : ∀ {key}, key ∈ (heap.ownKeys id).filter (fun key => !key.isSymbol) →
        key.isSymbol = false := fun member => by simpa using (List.mem_filter.mp member).2
    exact (text_inj (notSymbol leftMember) (notSymbol rightMember)).mp same
  · rw [ofValue?_toValue, Option.bind_some]

/-- The largest array index, and the next number, which is none. -/
theorem canonical_largest :
    let largest := PropertyKey.index 4294967294 (by decide)
    let name := ofString "4294967295"
    let heap := Heap.Command.runAll (.start {}) [
      .allocate 0 .ordinary none false,
      .defineOwn 0 largest (.data .null .assigned),
      .defineOwn 0 name (.data .null .assigned)]
    heap.Reachable ∧ largest.isSymbol = false ∧ name.isSymbol = false ∧ largest ≠ name ∧
      ofValue? (.string "4294967295") = some name ∧ name.toValue = .string "4294967295" ∧
      (((heap.ownKeys 0).filter fun key => !key.isSymbol).map text).Nodup := by
  intro largest name heap
  have reachable : heap.Reachable := ⟨{}, _, rfl⟩
  have differ : largest.text ≠ name.text := by decide
  obtain ⟨-, -, -, -, values, texts, objects, -⟩ := canonical
  have read : ofValue? (.string "4294967295") = some name := rfl
  exact ⟨reachable, rfl, rfl, fun same => differ ((texts largest name rfl rfl).mp same), read,
    values _ name read, objects heap reachable 0⟩

end PropertyKey

end ObjectModel
