import Mathlib.Algebra.Order.Floor.Semifield
import Mathlib.Data.Rat.Floor
import ObjectModel.Proofs.Machine.Invariant
import ObjectModel.Proofs.Machine.Ordinary
import ObjectModel.Proofs.Proxy.Transparency

/-!
Contract: which key lists of a trap are accepted, over a target that is not exotic.

`Machine.ReadsKeys` says how a list object is read, element by element, with the length in exact
arithmetic. `Heap.AdmitsKeys` says which lists of keys the target admits: none twice, all fixed
ones, and all and no others if no property can be added. The check decides that, in one look at
the target after the last element was read.

Owns: that no list of keys has a key twice, whatever proxies are asked.
-/

namespace ObjectModel

variable {σ : Type}

/-! ### Lengths -/

/-- The exact value of a finite number. -/
def Ieee.exactly (negative : Bool) (significand : Nat) (exponent : Int) : ℚ :=
  (if negative then -1 else 1) * significand * 2 ^ exponent

/-- How many elements a length asks for. None for `undefined`, NaN and what is not positive; a
fraction is cut off, and so is what is above `2 ^ 32 - 1`. -/
inductive Value.IsLength : Value → Nat → Prop
  | undefined : IsLength .undefined 0
  | nan {number : Number} (isNaN : number.datum = .nan) : IsLength (.number number) 0
  | infinity {number : Number} {negative : Bool}
      (isInfinity : number.datum = .infinity negative) :
      IsLength (.number number) (if negative then 0 else 2 ^ 32 - 1)
  | finite {number : Number} {negative : Bool} {significand : Nat} {exponent : Int}
      (isFinite : number.datum = .finite negative significand exponent) :
      IsLength (.number number)
        (min ⌊Ieee.exactly negative significand exponent⌋₊ (2 ^ 32 - 1))

namespace Number

theorem wholePart_eq (significand : Nat) (exponent : Int) :
    wholePart significand exponent = ⌊Ieee.exactly false significand exponent⌋₊ := by
  unfold wholePart Ieee.exactly
  rw [if_neg Bool.false_ne_true, one_mul]
  rcases Int.le_total 0 exponent with nonnegative | nonpositive
  · obtain ⟨places, rfl⟩ := Int.eq_ofNat_of_zero_le nonnegative
    have whole : (significand : ℚ) * 2 ^ (places : ℤ) = ((significand * 2 ^ places : ℕ) : ℚ) := by
      rw [zpow_natCast]
      push_cast
      rfl
    rw [whole, Nat.floor_natCast]
    simp [Nat.shiftLeft_eq]
  · obtain ⟨places, isNegated⟩ := Int.eq_ofNat_of_zero_le (Int.neg_nonneg_of_nonpos nonpositive)
    obtain rfl : exponent = -(places : ℤ) := by omega
    have quotient : (significand : ℚ) * 2 ^ (-(places : ℤ)) =
        (significand : ℚ) / ((2 ^ places : ℕ) : ℚ) := by
      rw [zpow_neg, zpow_natCast, div_eq_mul_inv]
      push_cast
      rfl
    rw [quotient, Nat.floor_div_eq_div]
    simp [Nat.shiftRight_eq_div_pow]

/-- What is not positive has no whole part to speak of. -/
theorem floor_exactly_negative (significand : Nat) (exponent : Int) :
    ⌊Ieee.exactly true significand exponent⌋₊ = 0 := by
  refine Nat.floor_of_nonpos ?_
  have magnitude : (0 : ℚ) ≤ significand * 2 ^ exponent :=
    mul_nonneg (Nat.cast_nonneg significand) (zpow_nonneg (by norm_num) exponent)
  unfold Ieee.exactly
  rw [if_pos rfl]
  linarith

/-- The length that is read is the one that the number asks for. -/
theorem isLength_iff (number : Number) (length : Nat) :
    Value.IsLength (.number number) length ↔ length = number.toLength := by
  unfold toLength
  constructor
  · intro isLength
    cases isLength with
    | nan isNaN => rw [isNaN]
    | infinity isInfinity => rw [isInfinity]; rfl
    | @finite _ negative significand exponent isFinite =>
        rw [isFinite]
        cases negative with
        | false =>
            rw [← wholePart_eq]
            rfl
        | true =>
            rw [floor_exactly_negative, Nat.zero_min]
            rfl
  · rintro rfl
    cases datum : number.datum with
    | nan => exact .nan datum
    | infinity negative => exact .infinity datum
    | finite negative significand exponent =>
        have isLength := Value.IsLength.finite datum
        cases negative with
        | false =>
            rw [← wholePart_eq] at isLength
            exact isLength
        | true =>
            rw [floor_exactly_negative, Nat.zero_min] at isLength
            exact isLength

end Number

/-! ### Reading a list -/

namespace Machine

/-- Some elements of a list object, read one after the other from `index` on. -/
inductive ReadsElements (dispatch : Dispatch σ) (list : ObjectId) :
    (index : Nat) → World σ → List Value → World σ → Prop
  | done {index : Nat} {world : World σ} : ReadsElements dispatch list index world [] world
  | more {index : Nat} {element : Option Value} {elements : List Value}
      {before between after : World σ}
      (read : dispatch (.getValue list (.ofNat index)) before = .ok element between)
      (rest : ReadsElements dispatch list (index + 1) between elements after) :
      ReadsElements dispatch list index before (element.getD .undefined :: elements) after

/-- The keys in a list object: it has as many elements as its length asks for, and each of them
is a string or a symbol. -/
inductive ReadsKeys (dispatch : Dispatch σ) (list : ObjectId) (before : World σ)
    (keys : List PropertyKey) (after : World σ) : Prop
  | intro {length : Option Value} {elements : List Value} {between : World σ}
      (lengthRead : dispatch (.getValue list (.ofString "length")) before = .ok length between)
      (isLength : (length.getD .undefined).IsLength elements.length)
      (elementsRead : ReadsElements dispatch list 0 between elements after)
      (areKeys : elements.map PropertyKey.ofValue? = keys.map some)

section Reading

variable {dispatch : Dispatch σ} {list : ObjectId} {before after : World σ}

theorem readKeys_eq_ok_iff {index count : Nat} {read keys : List PropertyKey} :
    readKeys dispatch list index read count before = .ok keys after ↔
      ∃ elements found, elements.length = count ∧
        ReadsElements dispatch list index before elements after ∧
        elements.map PropertyKey.ofValue? = found.map some ∧ keys = read.reverse ++ found := by
  induction count generalizing index read before with
  | zero =>
      constructor
      · intro ended
        cases ended
        exact ⟨[], [], rfl, .done, rfl, (List.append_nil _).symm⟩
      · rintro ⟨elements, found, isEmpty, elementsRead, areKeys, rfl⟩
        obtain rfl := List.eq_nil_of_length_eq_zero isEmpty
        cases elementsRead
        obtain rfl := List.map_eq_nil_iff.mp areKeys.symm
        rw [List.append_nil]
        rfl
  | succ count inductionHypothesis =>
      constructor
      · intro ended
        obtain ⟨element, between, elementRead, rest⟩ := Exec.bind_eq_ok ended
        cases isKey : PropertyKey.ofValue? (element.getD .undefined) with
        | none =>
            simp only [isKey] at rest
            cases rest
        | some key =>
            simp only [isKey] at rest
            obtain ⟨elements, found, rfl, elementsRead, areKeys, rfl⟩ :=
              inductionHypothesis.mp rest
            refine ⟨_, key :: found, rfl, .more elementRead elementsRead, ?_, ?_⟩
            · rw [List.map_cons, List.map_cons, isKey, areKeys]
            · rw [List.reverse_cons, List.append_assoc]
              rfl
      · rintro ⟨elements, found, isLength, elementsRead, areKeys, rfl⟩
        cases elementsRead with
        | done => cases isLength
        | @more _ element elements _ between _ elementRead elementsRead =>
            cases found with
            | nil => cases areKeys
            | cons key found =>
                rw [List.map_cons, List.map_cons, List.cons.injEq] at areKeys
                rw [readKeys, Exec.bind_apply, elementRead]
                simp only [areKeys.1]
                refine inductionHypothesis.mpr ⟨elements, found, Nat.succ.inj isLength,
                  elementsRead, areKeys.2, ?_⟩
                rw [List.reverse_cons, List.append_assoc]
                rfl

/-- The list that is read is the list of its keys. -/
theorem readKeyList_eq_ok_iff {keys : List PropertyKey} :
    readKeyList dispatch (.object list) before = .ok keys after ↔
      ReadsKeys dispatch list before keys after := by
  constructor
  · intro ended
    obtain ⟨length, between, lengthRead, rest⟩ := Exec.bind_eq_ok ended
    cases isLength : length.getD .undefined with
    | undefined =>
        simp only [isLength] at rest
        cases rest
        refine .intro lengthRead ?_ .done rfl
        rw [isLength]
        exact .undefined
    | number number =>
        simp only [isLength] at rest
        obtain ⟨elements, found, isCount, elementsRead, areKeys, rfl⟩ :=
          readKeys_eq_ok_iff.mp rest
        refine .intro lengthRead ?_ elementsRead areKeys
        rw [isLength, Number.isLength_iff, isCount]
    | _ =>
        simp only [isLength] at rest
        cases rest
  · rintro ⟨lengthRead, isLength, elementsRead, areKeys⟩
    rename_i length elements between
    rw [readKeyList, Exec.bind_apply, lengthRead]
    simp only
    cases found : length.getD .undefined with
    | undefined =>
        rw [found] at isLength
        cases elements with
        | cons _ _ => cases isLength
        | nil =>
            cases elementsRead
            obtain rfl := List.map_eq_nil_iff.mp areKeys.symm
            rfl
    | number number =>
        rw [found, Number.isLength_iff] at isLength
        exact readKeys_eq_ok_iff.mpr ⟨elements, keys, isLength, elementsRead, areKeys, rfl⟩
    | _ =>
        rw [found] at isLength
        cases isLength

end Reading

end Machine

/-! ### Comparing lists -/

/-- The key lists that a target admits: no key twice, all of its fixed keys, and exactly its keys
if none can be added. -/
structure Heap.AdmitsKeys (heap : Heap) (target : ObjectId) (keys : List PropertyKey) :
    Prop where
  nodup : keys.Nodup
  fixed : ∀ key current, heap.getOwn target key = some current →
    current.isConfigurable = false → key ∈ keys
  closed : heap.isExtensible target = false → keys.Perm (heap.ownKeys target)

namespace Machine

theorem removeKeys?_perm {keys given others : List PropertyKey}
    (removed : removeKeys? keys given = some others) : keys.Perm (given ++ others) := by
  induction given generalizing keys with
  | nil =>
      cases removed
      exact .refl _
  | cons key rest inductionHypothesis =>
      unfold removeKeys? at removed
      split at removed
      · rename_i member
        exact (List.perm_cons_erase member).trans ((inductionHypothesis removed).cons key)
      · cases removed

/-- Keys that are all there, as often as they are given, can be taken away. -/
theorem exists_removeKeys? {keys given others : List PropertyKey}
    (contained : keys.Perm (given ++ others)) : ∃ left, removeKeys? keys given = some left := by
  induction given generalizing keys with
  | nil => exact ⟨keys, rfl⟩
  | cons key rest inductionHypothesis =>
      have member : key ∈ keys := contained.mem_iff.mpr List.mem_cons_self
      have remaining : (keys.erase key).Perm (rest ++ others) :=
        ((List.perm_cons_erase member).symm.trans contained).cons_inv
      rw [removeKeys?, if_pos member]
      exact inductionHypothesis remaining

/-- The two rounds of the check, as one comparison each. -/
theorem checkKeyList_eq_none_iff (extensible : Bool) (fixed loose keys : List PropertyKey) :
    checkKeyList extensible fixed loose keys = none ↔
      (∃ others, keys.Perm (fixed ++ others)) ∧
        (extensible = false → keys.Perm (fixed ++ loose)) := by
  unfold checkKeyList
  cases removed : removeKeys? keys fixed with
  | none =>
      refine iff_of_false (by simp) ?_
      rintro ⟨⟨others, contained⟩, -⟩
      obtain ⟨left, removed'⟩ := exists_removeKeys? contained
      rw [removed] at removed'
      cases removed'
  | some others =>
      have split_keys := removeKeys?_perm removed
      have hasFixed : ∃ others, keys.Perm (fixed ++ others) := ⟨others, split_keys⟩
      cases extensible with
      | true => simpa using hasFixed
      | false =>
          have left_iff : keys.Perm (fixed ++ loose) ↔ others.Perm loose := by
            rw [split_keys.congr_left, List.perm_append_left_iff]
          simp only [Bool.false_eq_true, if_false, true_implies, left_iff, hasFixed, true_and]
          cases removed' : removeKeys? others loose with
          | none =>
              refine iff_of_false (by simp) fun same => ?_
              obtain ⟨left, found⟩ :=
                exists_removeKeys? (same.trans (.of_eq (List.append_nil loose).symm))
              rw [removed'] at found
              cases found
          | some left =>
              have split_others := removeKeys?_perm removed'
              cases left with
              | nil =>
                  rw [List.append_nil] at split_others
                  exact iff_of_true rfl split_others
              | cons key rest =>
                  refine iff_of_false (by simp) fun same => ?_
                  have lengths := (split_others.symm.trans same).length_eq
                  rw [List.length_append, List.length_cons] at lengths
                  omega

end Machine

/-- The key has a property that is not configurable. -/
def Heap.isFixed (heap : Heap) (target : ObjectId) (key : PropertyKey) : Bool :=
  (heap.getOwn target key).any (!·.isConfigurable)

theorem Heap.isFixed_iff {heap : Heap} {target : ObjectId} {key : PropertyKey} :
    heap.isFixed target key = true ↔
      ∃ current, heap.getOwn target key = some current ∧ current.isConfigurable = false := by
  simp [isFixed, Option.any_eq_true]

/-- Whether the target admits a list is what its keys, split in two, are compared for. -/
theorem Heap.WellFormed.admitsKeys_iff {heap : Heap} (wellFormed : heap.WellFormed)
    (target : ObjectId) {keys : List PropertyKey} (nodup : keys.Nodup) :
    heap.AdmitsKeys target keys ↔
      Machine.checkKeyList (heap.isExtensible target)
        ((heap.ownKeys target).filter (heap.isFixed target))
        ((heap.ownKeys target).filter (!heap.isFixed target ·)) keys = none := by
  have partition : ((heap.ownKeys target).filter (heap.isFixed target) ++
      (heap.ownKeys target).filter (!heap.isFixed target ·)).Perm (heap.ownKeys target) :=
    List.filter_append_perm _ _
  have mem_fixed : ∀ key, key ∈ (heap.ownKeys target).filter (heap.isFixed target) ↔
      heap.isFixed target key = true := by
    intro key
    rw [List.mem_filter, wellFormed.mem_ownKeys]
    refine and_iff_right_of_imp fun isFixed => ?_
    obtain ⟨current, found, -⟩ := isFixed_iff.mp isFixed
    rw [found]
    rfl
  rw [Machine.checkKeyList_eq_none_iff]
  constructor
  · intro admits
    refine ⟨?_, fun isClosed => (admits.closed isClosed).trans partition.symm⟩
    have contained : (heap.ownKeys target).filter (heap.isFixed target) ⊆ keys := by
      intro key member
      obtain ⟨current, found, notConfigurable⟩ := isFixed_iff.mp ((mem_fixed key).mp member)
      exact admits.fixed key current found notConfigurable
    obtain ⟨same, isFixed, sublist⟩ :=
      List.subperm_of_subset ((wellFormed.nodup_ownKeys target).filter _) contained
    obtain ⟨others, splits⟩ := sublist.exists_perm_append
    exact ⟨others, splits.trans (isFixed.append_right others)⟩
  · rintro ⟨⟨others, contained⟩, closed⟩
    refine ⟨nodup, ?_, fun isClosed => (closed isClosed).trans partition⟩
    intro key current found notConfigurable
    have member := (mem_fixed key).mpr (isFixed_iff.mpr ⟨current, found, notConfigurable⟩)
    exact contained.mem_iff.mpr (List.mem_append_left others member)

/-! ### The check -/

namespace Machine

/-- What is done with the list of keys that a trap returned. -/
def checkKeys (dispatch : Dispatch σ) (target : ObjectId) (keys : List PropertyKey) :
    Exec σ (List PropertyKey) := do
  if !decide keys.Nodup then Exec.violation .duplicateKeys
  else
    let extensible ← dispatch (.isExtensible target)
    let targetKeys ← dispatch (.allKeys target)
    let (fixed, loose) ← splitFixedKeys dispatch target targetKeys
    match checkKeyList extensible fixed loose keys with
    | some violation => Exec.violation violation
    | none => return keys

theorem proxyOwnKeys_eq (dispatch : Dispatch σ) (proxy : ObjectId) :
    proxyOwnKeys dispatch proxy =
      throughTrap dispatch proxy .ownKeys (fun target => dispatch (.allKeys target))
        fun target ask => ask [] >>= fun result =>
          Exec.holding result.references
            (readKeyList dispatch result >>= checkKeys dispatch target) :=
  rfl

section Check

variable (host : Host σ) (fuel : Nat) (world : World σ) {target : ObjectId}
  (ordinary : world.heap.isExotic target = false)

include ordinary

theorem splitFixedKeys_ordinary (keys : List PropertyKey) :
    splitFixedKeys (Call.run host (fuel + 1)) target keys world =
      .ok (keys.filter (world.heap.isFixed target), keys.filter (!world.heap.isFixed target ·))
        world := by
  induction keys with
  | nil => rfl
  | cons key rest inductionHypothesis =>
      rw [splitFixedKeys, Exec.bind_apply, Call.run_getOwn host fuel world ordinary]
      simp only
      rw [Exec.bind_apply, inductionHypothesis, List.filter_cons, List.filter_cons]
      cases isFixed : world.heap.isFixed target key with
      | true =>
          have fixed : (world.heap.getOwn target key).any (!·.isConfigurable) = true := isFixed
          simp only [fixed, if_true]
          rfl
      | false =>
          have loose : (world.heap.getOwn target key).any (!·.isConfigurable) = false := isFixed
          simp only [loose]
          rfl

/-- Looks at the target lead to the check of the lists, and change nothing. -/
private theorem checkKeys_nodup {keys : List PropertyKey} (nodup : keys.Nodup) :
    checkKeys (Call.run host (fuel + 1)) target keys world =
      match checkKeyList (world.heap.isExtensible target)
          ((world.heap.ownKeys target).filter (world.heap.isFixed target))
          ((world.heap.ownKeys target).filter (!world.heap.isFixed target ·)) keys with
      | some violation => .error (.error (.type (.trapViolation violation))) world
      | none => .ok keys world := by
  simp only [checkKeys, nodup, decide_true, Bool.not_true, Bool.false_eq_true, if_false]
  rw [Exec.bind_apply, Call.run_isExtensible host fuel world ordinary]
  simp only
  rw [Exec.bind_apply, Call.run_allKeys host fuel world ordinary]
  simp only
  rw [Exec.bind_apply, splitFixedKeys_ordinary host fuel world ordinary]
  simp only
  split <;> simp only [*] <;> rfl

/-- The target admits the keys, or the check fails. -/
theorem checkKeys_ordinary (wellFormed : world.heap.WellFormed) (keys : List PropertyKey) :
    (world.heap.AdmitsKeys target keys →
        checkKeys (Call.run host (fuel + 1)) target keys world = .ok keys world) ∧
      (¬world.heap.AdmitsKeys target keys → ∃ violation,
        checkKeys (Call.run host (fuel + 1)) target keys world =
          .error (.error (.type (.trapViolation violation))) world) := by
  by_cases nodup : keys.Nodup
  · rw [checkKeys_nodup host fuel world ordinary nodup, wellFormed.admitsKeys_iff target nodup]
    generalize checkKeyList _ _ _ keys = found
    cases found with
    | none => exact ⟨fun _ => rfl, fun refused => absurd rfl refused⟩
    | some violation => exact ⟨nofun, fun _ => ⟨violation, rfl⟩⟩
  · refine ⟨fun admits => absurd admits.nodup nodup, fun _ => ⟨.duplicateKeys, ?_⟩⟩
    simp only [checkKeys, nodup, decide_false, Bool.not_false, if_true]
    rfl

end Check

/-! ### Lists that no key is in twice -/

/-- What happens until the list of a trap is checked: the proxy is entered, its trap is found and
called, and the keys are read from the object that it returned. The function of the trap, the two
ends of the link, and then the list are in hand. -/
inductive ListsKeys (dispatch : Dispatch σ) (proxy : ObjectId) (link : ProxyLink)
    (function : ObjectId) (before : World σ) (list : ObjectId) (keys : List PropertyKey)
    (after : World σ) : Prop
  | intro {called answered : World σ}
      (entered : before.depth < (before.heap.config proxy).maxProxyDepth)
      (trapFound : dispatch (.getValue link.handler (.ofString Trap.ownKeys.name))
        { before with depth := before.depth + 1 } = .ok (some (.object function)) called)
      (isCallable : called.heap.isCallable function = true)
      (trapEnded : dispatch (.call function (.object link.handler) [.object link.target])
        { called with heap := called.heap.holdAll (link.inHand function) } =
          .ok (.object list) answered)
      (keysRead : ReadsKeys dispatch list
        { answered with heap := answered.heap.holdAll [list] } keys after)

section Lists

variable {holds : Heap → Prop} (kept : Heap.IsKept holds) {host : Host σ} {fuel : Nat}
  {before after : World σ} {list : ObjectId}

include kept

theorem ReadsElements.maintains {index : Nat} {elements : List Value}
    (read : ReadsElements (Call.run host.grounded fuel) list index before elements after)
    (start : holds before.heap) : holds after.heap := by
  induction read with
  | done => exact start
  | more read _ inductionHypothesis =>
      exact inductionHypothesis (Call.run_maintains kept host fuel _ start read)

theorem ListsKeys.maintains {proxy function : ObjectId} {link : ProxyLink}
    {keys : List PropertyKey}
    (listed : ListsKeys (Call.run host.grounded fuel) proxy link function before list keys after)
    (start : holds before.heap) : holds after.heap := by
  obtain ⟨_, trapFound, _, trapEnded, ⟨lengthRead, _, elementsRead, _⟩⟩ := listed
  have run_maintains := Call.run_maintains kept host fuel
  have entered : holds (World.heap { before with depth := before.depth + 1 }) := start
  have found := kept _ (run_maintains _ entered trapFound) (.holdAll (link.inHand function))
  have held := kept _ (run_maintains _ found trapEnded) (.holdAll [list])
  exact elementsRead.maintains kept (run_maintains _ held lengthRead)

end Lists

/-- The trap is there, and can be called. -/
theorem findTrap_eq {dispatch : Dispatch σ} {proxy function : ObjectId} {link : ProxyLink}
    {trap : Trap} {world called : World σ} (isProxy : world.heap.proxy? proxy = some link)
    (notRevoked : link.revoked = false)
    (trapFound : dispatch (.getValue link.handler (.ofString trap.name)) world =
      .ok (some (.object function)) called)
    (isCallable : called.heap.isCallable function = true) :
    findTrap dispatch proxy trap world = .ok (link, some function) called := by
  have isFunction : called.heap.isFunction (.object function) = true := isCallable
  rw [findTrap, Exec.heap_bind]
  simp only [isProxy, notRevoked, Bool.false_eq_true, if_false]
  rw [Exec.bind_apply, trapFound]
  simp only [Option.getD_some]
  rw [Exec.heap_bind, if_pos isFunction]
  rfl

/-- The world as a proxy leaves it that has a list and these objects in hand. -/
def leaveList (inHand : List ObjectId) (list : ObjectId) (world : World σ) : World σ :=
  { world with
    heap := (world.heap.releaseAll [list]).releaseAll inHand
    depth := world.depth - 1 }

section Ends

variable {host : Host σ} {fuel : Nat} {proxy function list : ObjectId} {link : ProxyLink}
  {keys : List PropertyKey} {before final : World σ}
  (isProxy : before.heap.proxy? proxy = some link) (notRevoked : link.revoked = false)
  (listed : ListsKeys (Call.run host (fuel + 1)) proxy link function before list keys final)

include isProxy notRevoked listed

/-- Once the keys are read, they are checked. -/
theorem ListsKeys.run_eq :
    Call.run host (fuel + 2) (.allKeys proxy) before =
      match checkKeys (Call.run host (fuel + 1)) link.target keys final with
      | .ok answer world => .ok answer (leaveList (link.inHand function) list world)
      | .error fault world => .error fault (leaveList (link.inHand function) list world) := by
  obtain @⟨called, answered, entered, trapFound, isCallable, trapEnded, keysRead⟩ := listed
  have isExotic : before.heap.isExotic proxy = true := by
    rw [Heap.isExotic, isProxy]
    rfl
  have isFound : findTrap (Call.run host (fuel + 1)) proxy .ownKeys
      { before with depth := before.depth + 1 } = .ok (link, some function) called :=
    findTrap_eq isProxy notRevoked trapFound isCallable
  rw [Call.run, Call.step_allKeys, byKind_exotic isExotic, Exec.inProxyFrame, if_pos entered]
  unfold Exec.andFinally
  rw [proxyOwnKeys_eq, throughTrap, Exec.bind_apply, isFound]
  simp only
  rw [Exec.holding_apply, Exec.bind_apply, trapEnded]
  simp only [Value.references, Value.object?, Option.toList_some]
  rw [Exec.holding_apply, Exec.bind_apply, readKeyList_eq_ok_iff.mpr keysRead]
  simp only
  cases checkKeys (Call.run host (fuel + 1)) link.target keys final <;> rfl

/-- The check is against the target as it is then. -/
theorem ListsKeys.ends (wellFormed : final.heap.WellFormed)
    (ordinary : final.heap.isExotic link.target = false) :
    (final.heap.AdmitsKeys link.target keys →
        Call.run host (fuel + 2) (.allKeys proxy) before =
          .ok keys (leaveList (link.inHand function) list final)) ∧
      (¬final.heap.AdmitsKeys link.target keys → ∃ violation,
        Call.run host (fuel + 2) (.allKeys proxy) before =
          .error (.error (.type (.trapViolation violation)))
            (leaveList (link.inHand function) list final)) := by
  obtain ⟨accepted, refused⟩ := checkKeys_ordinary host fuel final ordinary wellFormed keys
  rw [listed.run_eq isProxy notRevoked]
  refine ⟨fun admits => ?_, fun admitsNot => ?_⟩
  · rw [accepted admits]
  · obtain ⟨violation, isRefused⟩ := refused admitsNot
    exact ⟨violation, by rw [isRefused]⟩

end Ends

/-- A list that passes the check is checked for duplicates first. -/
private theorem nodup_of_checkKeys {dispatch : Dispatch σ} {target : ObjectId}
    {keys answer : List PropertyKey} {before after : World σ}
    (ended : checkKeys dispatch target keys before = .ok answer after) : answer.Nodup := by
  by_cases nodup : keys.Nodup
  · simp only [checkKeys, nodup, decide_true, Bool.not_true, Bool.false_eq_true, if_false] at ended
    obtain ⟨extensible, _, _, ended⟩ := Exec.bind_eq_ok ended
    obtain ⟨targetKeys, _, _, ended⟩ := Exec.bind_eq_ok ended
    obtain ⟨⟨fixed, loose⟩, _, _, ended⟩ := Exec.bind_eq_ok ended
    cases found : checkKeyList extensible fixed loose keys with
    | some violation =>
        simp only [found] at ended
        cases ended
    | none =>
        simp only [found] at ended
        cases ended
        exact nodup
  · simp only [checkKeys, nodup, decide_false, Bool.not_false, if_true] at ended
    cases ended

/-- However many proxies stand before the last target, each of them forwards or checks. -/
theorem run_allKeys_nodup (host : Host σ) (fuel : Nat) {id : ObjectId} {before after : World σ}
    {keys : List PropertyKey} (reachable : before.heap.Reachable)
    (ended : Call.run host.grounded fuel (.allKeys id) before = .ok keys after) :
    keys.Nodup := by
  induction fuel generalizing id before after with
  | zero => cases ended
  | succ fuel inductionHypothesis =>
      rw [Call.run, Call.step_allKeys] at ended
      cases isExotic : before.heap.isExotic id with
      | false =>
          rw [byKind_ordinary isExotic] at ended
          cases ended
          exact reachable.wellFormed.nodup_ownKeys id
      | true =>
          rw [byKind_exotic isExotic] at ended
          obtain ⟨last, ended, -⟩ := Exec.inProxyFrame_eq_ok ended
          rw [proxyOwnKeys_eq] at ended
          obtain ⟨⟨link, function⟩, found, isFound, ended⟩ := Exec.bind_eq_ok ended
          have finds := Exec.maintains_of_agrees Heap.isKept_reachable
            ((Call.kept_dispatches Heap.isKept_reachable host fuel).findTrap_agrees id .ownKeys)
          have entered : (World.heap { before with depth := before.depth + 1 }).Reachable :=
            reachable
          have stillReachable := finds entered isFound
          cases function with
          | none => exact inductionHypothesis stillReachable ended
          | some function =>
              obtain ⟨_, ended, -⟩ := Exec.holding_eq_ok ended
              obtain ⟨result, _, _, ended⟩ := Exec.bind_eq_ok ended
              obtain ⟨_, ended, -⟩ := Exec.holding_eq_ok ended
              obtain ⟨read, _, _, ended⟩ := Exec.bind_eq_ok ended
              exact nodup_of_checkKeys ended

end Machine

/-- The trap of a proxy for an object that is not exotic returns a list of strings and symbols.
That is the answer, in this order, if the target admits it as it is after the last element was
read, and a type error otherwise; the check changes nothing. So the keys that are listed of any
object, through any proxies and whatever kinds of keys are wanted, have no key twice. -/
theorem Call.run_ownKeys_admitted (host : Host σ) :
    (∀ (fuel : Nat) (proxy function list : ObjectId) (link : ProxyLink)
        (keys : List PropertyKey) (before final : World σ), before.heap.Reachable →
      before.heap.proxy? proxy = some link → link.revoked = false →
      link.target < before.heap.objects.size → before.heap.isExotic link.target = false →
      Machine.ListsKeys (Call.run host.grounded fuel) proxy link function before list keys final →
      let after : World σ :=
        { final with
          heap := (final.heap.releaseAll [list]).releaseAll (link.inHand function)
          depth := final.depth - 1 }
      (final.heap.AdmitsKeys link.target keys →
          Call.run host.grounded (fuel + 1) (.allKeys proxy) before = .ok keys after) ∧
        (¬final.heap.AdmitsKeys link.target keys → ∃ fault,
          Call.run host.grounded (fuel + 1) (.allKeys proxy) before =
            .error (.error (.type fault)) after)) ∧
    ∀ (fuel : Nat) (id : ObjectId) (strings symbols : Bool) (keys : List PropertyKey)
        (before after : World σ), before.heap.Reachable →
      Call.run host.grounded fuel (.ownKeys id strings symbols) before = .ok keys after →
        keys.Nodup := by
  refine ⟨?_, ?_⟩
  · intro fuel proxy function list link keys before final reachable isProxy notRevoked inRange
      ordinary listed
    obtain ⟨stillReachable, -, stillOrdinary⟩ :=
      listed.maintains (Heap.isKept_reachableWith link.target) ⟨reachable, inRange, ordinary⟩
    cases fuel with
    | zero =>
        obtain ⟨_, trapFound, _, _, _⟩ := listed
        cases trapFound
    | succ fuel =>
        obtain ⟨accepted, refused⟩ :=
          listed.ends isProxy notRevoked stillReachable.wellFormed stillOrdinary
        refine ⟨accepted, fun admitsNot => ?_⟩
        obtain ⟨violation, isRefused⟩ := refused admitsNot
        exact ⟨_, isRefused⟩
  · intro fuel id strings symbols keys before after reachable ended
    rw [Call.run_ownKeys_eq] at ended
    obtain ⟨all, between, listed, ended⟩ := Exec.bind_eq_ok ended
    cases ended
    exact (Machine.run_allKeys_nodup host fuel reachable listed).filter _

/-- Makes an object with a fixed property, a handler with a trap for its keys, the function of
the trap, a list of two keys, and a proxy. -/
def Heap.Command.listKeys : List Heap.Command := [
  .allocate 0 .ordinary none false,
  .defineOwn 0 (.symbol ⟨0, none⟩) (.data .null ⟨true, true, false⟩),
  .allocate 0 .ordinary none false,
  .defineOwn 1 (.ofString "ownKeys") (.data (.object 2) .assigned),
  .allocate 0 (.function "ownKeys" (.code 0)) none false,
  .allocate 0 .ordinary none false,
  .defineOwn 3 (.ofString "length") (.data (.number (.ofInt 2)) .assigned),
  .defineOwn 3 (.ofNat 0) (.data (.string "a") .assigned),
  .defineOwn 3 (.ofNat 1) (.data (.symbol ⟨0, none⟩) .assigned),
  .allocate 0 (.proxy ⟨0, 1, false⟩) none false]

/-- The trap lists the fixed key behind a key that the target does not have. -/
theorem Call.run_ownKeys_admitted_fixed :
    let host : Host Unit := fun _ _ _ => .done (.ok (.object 3))
    let heap := Heap.Command.runAll (.start {}) Heap.Command.listKeys
    let keys := [PropertyKey.ofString "a", .symbol ⟨0, none⟩]
    heap.Reachable ∧ heap.proxy? 4 = some ⟨0, 1, false⟩ ∧ heap.isExotic 0 = false ∧
      Call.run host.grounded 2 (.ownKeys 4 true true) ⟨heap, 0, ()⟩ = .ok keys ⟨heap, 0, ()⟩ ∧
      keys.Nodup := by
  intro host heap keys
  let link : ProxyLink := ⟨0, 1, false⟩
  let called := heap.holdAll (link.inHand 2)
  let listing := called.holdAll [3]
  have reachable : heap.Reachable := ⟨{}, Heap.Command.listKeys, rfl⟩
  have isProxy : heap.proxy? 4 = some link := by decide +kernel
  have inRange : 0 < heap.objects.size := by decide +kernel
  have ordinary : heap.isExotic 0 = false := by decide +kernel
  have entered : 0 < (heap.config 4).maxProxyDepth := by decide +kernel
  have handlerOrdinary : heap.isExotic 1 = false := by decide +kernel
  have trapFound : heap.findProperty 1 (.ofString Trap.ownKeys.name) =
      .found 1 .assigned (.data (.object 2)) := by decide +kernel
  have isFunction : called.kind 2 = .function "ownKeys" (.code 0) := by decide +kernel
  have isCallable : heap.isCallable 2 = true := by decide +kernel
  have listOrdinary : listing.isExotic 3 = false := by decide +kernel
  have lengthFound : listing.findProperty 3 (.ofString "length") =
      .found 3 .assigned (.data (.number (.ofInt 2))) := by decide +kernel
  have firstFound : listing.findProperty 3 (.ofNat 0) =
      .found 3 .assigned (.data (.string "a")) := by decide +kernel
  have secondFound : listing.findProperty 3 (.ofNat 1) =
      .found 3 .assigned (.data (.symbol ⟨0, none⟩)) := by decide +kernel
  have nodup : keys.Nodup := by decide +kernel
  have admits : listing.AdmitsKeys 0 keys := by
    have kept := Heap.isKept_reachable
    have wellFormed : listing.WellFormed :=
      (kept _ (kept heap reachable (.holdAll (link.inHand 2))) (.holdAll [3])).wellFormed
    exact (wellFormed.admitsKeys_iff 0 nodup).mpr (by decide +kernel)
  have released : (listing.releaseAll [3]).releaseAll (link.inHand 2) = heap := by
    have list : listing.releaseAll [3] = called := Heap.releaseAll_holdAll (by decide +kernel)
    rw [list, Heap.releaseAll_holdAll (by decide +kernel)]
  clear_value heap
  let elements := [Value.string "a", .symbol ⟨0, none⟩]
  let held : World Unit := ⟨listing, 1, ()⟩
  have lengthRead : Call.run host.grounded 1 (.getValue 3 (.ofString "length")) held =
      .ok (some (.number (.ofInt 2))) held :=
    Call.run_get_data host.grounded 0 held listOrdinary lengthFound _
  have isLength : (Value.number (.ofInt 2)).IsLength elements.length :=
    (Number.isLength_iff (.ofInt 2) 2).mpr (by decide +kernel)
  have elementsRead : Machine.ReadsElements (Call.run host.grounded 1) 3 0 held elements held :=
    .more (Call.run_get_data host.grounded 0 held listOrdinary firstFound _)
      (.more (Call.run_get_data host.grounded 0 held listOrdinary secondFound _) .done)
  have trapEnded : Call.run host.grounded 1 (.call 2 (.object 1) [.object 0]) ⟨called, 1, ()⟩ =
      .ok (.object 3) ⟨called, 1, ()⟩ := by
    rw [Call.run, Call.step, Machine.callObject, Exec.heap_bind]
    simp only [isFunction]
    rfl
  have listed : Machine.ListsKeys (Call.run host.grounded 1) 4 link 2 ⟨heap, 0, ()⟩ 3 keys held :=
    .intro entered
      (Call.run_get_data host.grounded 0 ⟨heap, 1, ()⟩ handlerOrdinary trapFound _) isCallable
      trapEnded (.intro lengthRead isLength elementsRead rfl)
  obtain ⟨admitted, unique⟩ := Call.run_ownKeys_admitted host
  have accepted := (admitted 1 4 2 3 link keys ⟨heap, 0, ()⟩ held
    reachable isProxy rfl inRange ordinary listed).1 admits
  simp only [held, released] at accepted
  exact ⟨reachable, isProxy, ordinary, accepted, unique 2 4 true true _ _ _ reachable accepted⟩

end ObjectModel
