import ObjectModel.Proofs.Heap.IntegrityTest
import ObjectModel.Proofs.Machine.Ordinary
import ObjectModel.Proofs.Proxy.Transparency

/-!
Contract: protecting an object through proxies that forward everything.

A tower (`Heap.Tower`) is a proxy of a proxy of ... an object that is not exotic, with no traps
on any handler. What the object answers at every depth is what the tower answers
(`Heap.Tower.ask_ok`). Protecting a tower to a level closes the object, and then redefines one
property after the other; `Heap.Securing` is what holds in between.

Owns: what the algorithm for exotic objects makes of the properties (`Heap.Secures`). Does not
own: the algorithm for objects that are not exotic (`Heap.Integrity`), which takes its own ways.
-/

namespace ObjectModel

variable {σ : Type}

/-! ### Towers -/

/-- Proxies without traps, `height` of them, around an object that is not exotic. The store of
each lets `limit` proxies dispatch into each other. -/
inductive Heap.Tower (heap : Heap) (limit : Nat) (target : ObjectId) :
    (height : Nat) → ObjectId → Prop
  | base (notExotic : heap.isExotic target = false) : Tower heap limit target 0 target
  | wrap {height : Nat} {proxy : ObjectId} {link : ProxyLink}
      (isProxy : heap.proxy? proxy = some link) (notRevoked : link.revoked = false)
      (lacks : heap.LacksTraps link.handler)
      (hasRoom : limit ≤ (heap.config proxy).maxProxyDepth)
      (rest : Tower heap limit target height link.target) :
      Tower heap limit target (height + 1) proxy

namespace Heap.Tower

variable {heap : Heap} {limit height : Nat} {target proxy : ObjectId}

theorem target_ordinary (tower : heap.Tower limit target height proxy) :
    heap.isExotic target = false := by
  induction tower with
  | base notExotic => exact notExotic
  | wrap _ _ _ _ _ inductionHypothesis => exact inductionHypothesis

theorem isExotic (tower : heap.Tower limit target (height + 1) proxy) :
    heap.isExotic proxy = true := by
  cases tower with
  | wrap isProxy _ _ _ _ =>
      rw [Heap.isExotic, isProxy]
      rfl

/-- A tower stands as long as kinds, links and configurations stay, and no object gets a
property that it did not have. -/
theorem keep {after : Heap} (kind_eq : ∀ id, after.kind id = heap.kind id)
    (prototype_eq : ∀ id, after.prototype id = heap.prototype id)
    (config_eq : ∀ id, after.config id = heap.config id)
    (absent : ∀ id key, heap.lookup id key = none → after.lookup id key = none)
    (tower : heap.Tower limit target height proxy) : after.Tower limit target height proxy := by
  have exotic_eq := fun id => isExotic_congr (kind_eq id)
  induction tower with
  | base notExotic => exact .base (by rw [exotic_eq, notExotic])
  | wrap isProxy notRevoked lacks hasRoom _ inductionHypothesis =>
      obtain ⟨ids, chain, missing⟩ := lacks
      refine .wrap ?_ notRevoked ⟨ids, chain.congr exotic_eq prototype_eq, ?_⟩ ?_
        inductionHypothesis
      · rw [proxy?, kind_eq]
        exact isProxy
      · exact fun id member trap => absent _ _ (missing id member trap)
      · rwa [config_eq]

/-- What the object answers at every depth, the tower answers. -/
theorem ask_ok (chained : heap.Chained) (host : Host σ) {operation : Operation} {fuel : Nat}
    {client : σ} {answer : operation.Answer} {after : Heap}
    (atTarget : ∀ depth, operation.ask (Call.run host (fuel + 1)) target ⟨heap, depth, client⟩ =
      .ok answer ⟨after, depth, client⟩)
    (tower : heap.Tower limit target height proxy) {depth : Nat}
    (fits : depth + height ≤ limit) :
    operation.ask (Call.run host (fuel + height + 1)) proxy ⟨heap, depth, client⟩ =
      .ok answer ⟨after, depth, client⟩ := by
  induction tower generalizing depth with
  | base _ => exact atTarget depth
  | @wrap height proxy link isProxy notRevoked lacks hasRoom _ inductionHypothesis =>
      have forwarded := Operation.ask_run chained isProxy notRevoked lacks host operation
        (fuel + height) depth client
      have entered : depth < (heap.config proxy).maxProxyDepth := by omega
      have inFrame : operation.ask (Call.run host (fuel + height + 1)) link.target
          ⟨heap, depth + 1, client⟩ = .ok answer ⟨after, depth + 1, client⟩ :=
        inductionHypothesis (by omega)
      show operation.ask (Call.run host (fuel + height + 2)) proxy _ = _
      rw [forwarded]
      unfold Exec.inProxyFrame Exec.andFinally
      rw [if_pos entered, inFrame]
      rfl

end Heap.Tower

/-! ### One property -/

namespace Descriptor

/-- A description after its property is protected to a level. -/
def protect (descriptor : Descriptor) : Integrity → Descriptor
  | .sealed => { descriptor with configurable := some false }
  | .frozen =>
      { descriptor with
        configurable := some false
        writable := descriptor.writable.map fun _ => false }

/-- The change that protects a property with this description. -/
def protecting (current : Descriptor) (level : Integrity) : Descriptor :=
  { configurable := some false
    writable := if level = .frozen && !current.isAccessor then some false else none }

theorem protect_protect (descriptor : Descriptor) (level : Integrity) :
    (descriptor.protect level).protect level = descriptor.protect level := by
  cases level with
  | «sealed» => rfl
  | frozen => simp [protect, Function.comp_def]

theorem isMixed_protecting (current : Descriptor) (level : Integrity) :
    (current.protecting level).isMixed = false :=
  Bool.and_false _

/-- No function is named. -/
theorem namesFunctions_protecting (callable : ObjectId → Bool) (current : Descriptor)
    (level : Integrity) : (current.protecting level).NamesFunctions callable where
  getter := by rintro _ ⟨⟩
  setter := by rintro _ ⟨⟩

/-- The change is allowed whatever is fixed already. -/
theorem mayDefine_protecting {current : Descriptor} (full : current.IsFull) (level : Integrity)
    (extensible : Bool) :
    (current.protecting level).MayDefine extensible (some current) := by
  refine .inr ?_
  cases full with
  | data value attributes => cases level <;> constructor <;> simp [protecting, data, isData,
      isAccessor]
  | accessor getter setter enumerable configurable =>
      cases level <;> constructor <;> simp [protecting, isData, isAccessor]

theorem overlay_protecting {current : Descriptor} (full : current.IsFull) (level : Integrity) :
    (current.protecting level).overlay (some current) = current.protect level := by
  cases full with
  | data value attributes => cases level <;> rfl
  | accessor getter setter enumerable configurable => cases level <;> rfl

theorem isProtected_protect (current : Descriptor) (level : Integrity) :
    (current.protect level).isConfigurable = false ∧
      (level = .frozen → (current.protect level).isWritable = false) := by
  cases level with
  | «sealed» => exact ⟨rfl, fun isFrozen => by cases isFrozen⟩
  | frozen =>
      refine ⟨rfl, fun _ => ?_⟩
      cases writable : current.writable <;> simp [protect, isWritable, writable]

end Descriptor

/-! ### An object that is being protected -/

namespace Heap

/-- An object is closed, those of its properties that are done are protected to a level, and
nothing else has changed. -/
structure Securing (before : Heap) (id : ObjectId) (level : Integrity) (done : List PropertyKey)
    (after : Heap) : Prop where
  updates : ∃ map, before.Updates id map after
  isClosed : after.isExtensible id = false
  keys_eq : after.keys id = before.keys id
  getOwn_done : ∀ key ∈ done,
    after.getOwn id key = (before.getOwn id key).map (·.protect level)
  getOwn_left : ∀ key, key ∉ done → after.getOwn id key = before.getOwn id key

/-- An object is closed, all of its properties are protected to a level, and nothing else has
changed. -/
structure Secures (before : Heap) (id : ObjectId) (level : Integrity) (after : Heap) : Prop where
  isClosed : after.isExtensible id = false
  isProtected : after.IsProtected id level
  getOwn_eq : ∀ key, after.getOwn id key = (before.getOwn id key).map (·.protect level)
  keys_eq : after.keys id = before.keys id
  ownKeys_eq : after.ownKeys id = before.ownKeys id
  size_eq : after.objects.size = before.objects.size
  kind_eq : ∀ other, after.kind other = before.kind other
  prototype_eq : ∀ other, after.prototype other = before.prototype other
  object_other : ∀ other, other ≠ id → after.object other = before.object other
  view_other : ∀ other, other ≠ id → after.view other = before.view other

section Securing

variable {before : Heap} (chained : before.Chained) {id : ObjectId}
  (inRange : id < before.objects.size)

include chained inRange

theorem securing_preventExtensions (level : Integrity) :
    before.Securing id level [] (before.preventExtensions id) := by
  have wellFormed := chained.wellFormed
  have updates := wellFormed.updates_preventExtensions id
  have view_eq := updates.view_eq inRange
  refine ⟨⟨_, updates⟩, ?_, ?_, ?_, ?_⟩
  · rw [isExtensible_eq, view_eq, PropertyMap.extensible_close]
  · rw [updates.wellFormed.keys_eq, view_eq, wellFormed.keys_eq, PropertyMap.keys_close]
  · intro key member
    cases member
  · intro key _
    rw [updates.wellFormed.getOwn_eq, view_eq, wellFormed.getOwn_eq, PropertyMap.descriptor?,
      PropertyMap.find?_close, PropertyMap.descriptor?]

namespace Securing

variable {level : Integrity} {done : List PropertyKey} {after : Heap}
  (securing : before.Securing id level done after)

include securing

omit inRange in
theorem chained_after : after.Chained := by
  obtain ⟨_, updates⟩ := securing.updates
  exact chained.updates updates

omit chained inRange in
/-- A property is as before, or already protected. -/
theorem getOwn_cases (key : PropertyKey) :
    after.getOwn id key = before.getOwn id key ∨
      after.getOwn id key = (before.getOwn id key).map (·.protect level) := by
  by_cases isDone : key ∈ done
  · exact .inr (securing.getOwn_done key isDone)
  · exact .inl (securing.getOwn_left key isDone)

omit inRange in
theorem tower {limit height : Nat} {proxy : ObjectId}
    (tower : before.Tower limit id height proxy) : after.Tower limit id height proxy := by
  obtain ⟨map, updates⟩ := securing.updates
  refine tower.keep updates.kind_eq updates.prototype_eq updates.config_eq ?_
  intro other key missing
  by_cases same : other = id
  · subst same
    have absent : before.getOwn other key = none := by
      rw [getOwn, missing]
      rfl
    have absent' : after.getOwn other key = none := by
      rcases securing.getOwn_cases key with kept | isDone
      · rw [kept, absent]
      · rw [isDone, absent]
        rfl
    exact Option.map_eq_none_iff.mp absent'
  · rw [updates.wellFormed.lookup_eq, updates.view_other chained.wellFormed same,
      ← chained.wellFormed.lookup_eq, missing]

omit chained in
/-- One more property is protected, whatever was fixed about it. -/
theorem step {key : PropertyKey} {current : Descriptor}
    (found : after.getOwn id key = some current) :
    ∃ next, after.defineOwn id key (current.protecting level) = (next, .ok .accepted) ∧
      before.Securing id level (key :: done) next := by
  obtain ⟨_, updates⟩ := securing.updates
  have wellFormed := updates.wellFormed
  have full := wellFormed.isFull_getOwn current found
  have notMixed := current.isMixed_protecting level
  have compatible : (current.protecting level).isCompatible key (after.isExtensible id)
      (after.getOwn id key) = true := by
    rw [Descriptor.isCompatible_iff wellFormed.isFull_getOwn notMixed, found]
    exact Descriptor.mayDefine_protecting full level _
  obtain ⟨next, accepted, defines, -⟩ := wellFormed.defineOwn_defines (updates.size_eq ▸ inRange)
    notMixed (current.namesFunctions_protecting _ level) compatible
  have protected_eq : next.getOwn id key = (before.getOwn id key).map (·.protect level) := by
    rw [defines.getOwn_eq, found, Descriptor.overlay_protecting full]
    rcases securing.getOwn_cases key with kept | isDone
    · rw [← kept, found]
      rfl
    · rw [found] at isDone
      cases old : before.getOwn id key with
      | none =>
          rw [old] at isDone
          cases isDone
      | some old' =>
          rw [old] at isDone
          cases isDone
          rw [Descriptor.protect_protect]
          rfl
  obtain ⟨_, updates'⟩ := wellFormed.updates_defineOwn id key (current.protecting level)
  rw [accepted] at updates'
  refine ⟨next, accepted, ⟨_, updates.trans updates'⟩, ?_, ?_, ?_, ?_⟩
  · rw [defines.isExtensible_eq, securing.isClosed]
  · rw [defines.keys_eq, found, ← securing.keys_eq]
    rfl
  · intro other member
    by_cases same : other = key
    · rw [same, protected_eq]
    · rw [defines.getOwn_other other same]
      exact securing.getOwn_done other (List.mem_of_ne_of_mem same member)
  · intro other left
    rw [defines.getOwn_other other (List.ne_of_not_mem_cons left),
      securing.getOwn_left other (List.not_mem_of_not_mem_cons left)]

omit inRange in
/-- Once all keys are done, the object is protected. -/
theorem secures (all : ∀ key ∈ before.ownKeys id, key ∈ done) :
    before.Secures id level after := by
  obtain ⟨_, updates⟩ := securing.updates
  have wellFormed := chained.wellFormed
  have getOwn_eq : ∀ key, after.getOwn id key = (before.getOwn id key).map (·.protect level) := by
    intro key
    by_cases listed : key ∈ before.ownKeys id
    · exact securing.getOwn_done key (all key listed)
    · rw [wellFormed.mem_ownKeys, Option.not_isSome_iff_eq_none] at listed
      rcases securing.getOwn_cases key with kept | isDone
      · rw [kept, listed]
        rfl
      · exact isDone
  refine ⟨securing.isClosed, ?_, getOwn_eq, securing.keys_eq, ?_, updates.size_eq,
    updates.kind_eq, updates.prototype_eq,
    fun other different => updates.object_other other (.inl different),
    fun other different => updates.view_other wellFormed different⟩
  · intro key current found
    rw [getOwn_eq] at found
    obtain ⟨old, -, rfl⟩ := Option.map_eq_some_iff.mp found
    have fixed := old.isProtected_protect level
    exact ⟨fixed.1, fun isFrozen _ => fixed.2 isFrozen⟩
  · rw [updates.wellFormed.ownKeys_eq, wellFormed.ownKeys_eq, ← updates.wellFormed.keys_eq,
      ← wellFormed.keys_eq, securing.keys_eq]

end Securing

end Securing

end Heap

/-! ### What a tower answers -/

namespace Heap.Tower

variable {heap : Heap} {limit height depth : Nat} {target proxy : ObjectId}
  (tower : heap.Tower limit target height proxy) (chained : heap.Chained)
  (fits : depth + height ≤ limit) (host : Host σ) (fuel : Nat) (client : σ)

include tower chained fits

/-- The tower gives what is seen of the result that the object gives at every depth. -/
theorem call_ok (operation : Operation) (result : (operation.call target).Answer) (after : Heap)
    (atTarget : ∀ depth, Call.run host (fuel + 1) (operation.call target) ⟨heap, depth, client⟩ =
      .ok result ⟨after, depth, client⟩) :
    ∃ answer, Call.run host (fuel + height + 1) (operation.call proxy) ⟨heap, depth, client⟩ =
        .ok answer ⟨after, depth, client⟩ ∧
      operation.seen proxy answer = operation.seen target result := by
  have asked : operation.ask (Call.run host (fuel + height + 1)) proxy ⟨heap, depth, client⟩ =
      .ok (operation.seen target result) ⟨after, depth, client⟩ :=
    ask_ok chained host (fun depth => Operation.ask_ok (atTarget depth)) tower fits
  obtain ⟨answer, between, called, ended⟩ := Exec.bind_eq_ok asked
  injection ended with seen same
  subst same
  exact ⟨answer, called, seen⟩

theorem call_isExtensible :
    Call.run host (fuel + height + 1) (.isExtensible proxy) ⟨heap, depth, client⟩ =
      .ok (heap.isExtensible target) ⟨heap, depth, client⟩ := by
  obtain ⟨_, called, rfl⟩ := tower.call_ok chained fits host fuel client .isExtensible
    (heap.isExtensible target) heap fun depth =>
      Call.run_isExtensible host fuel ⟨heap, depth, client⟩ tower.target_ordinary
  exact called

theorem call_getOwnProperty (key : PropertyKey) :
    Call.run host (fuel + height + 1) (.getOwnProperty proxy key) ⟨heap, depth, client⟩ =
      .ok (heap.getOwn target key) ⟨heap, depth, client⟩ := by
  obtain ⟨_, called, rfl⟩ := tower.call_ok chained fits host fuel client (.getOwnProperty key)
    (heap.getOwn target key) heap fun depth =>
      Call.run_getOwn host fuel ⟨heap, depth, client⟩ tower.target_ordinary key
  exact called

theorem call_allKeys :
    Call.run host (fuel + height + 1) (.allKeys proxy) ⟨heap, depth, client⟩ =
      .ok (heap.ownKeys target) ⟨heap, depth, client⟩ := by
  obtain ⟨_, called, rfl⟩ := tower.call_ok chained fits host fuel client (.ownKeys true true)
    (heap.ownKeys target) heap fun depth =>
      Call.run_allKeys host fuel ⟨heap, depth, client⟩ tower.target_ordinary
  exact called

theorem call_preventExtensions :
    Call.run host (fuel + height + 1) (.preventExtensions proxy) ⟨heap, depth, client⟩ =
      .ok .accepted ⟨heap.preventExtensions target, depth, client⟩ := by
  obtain ⟨verdict, called, seen⟩ := tower.call_ok chained fits host fuel client
    .preventExtensions .accepted (heap.preventExtensions target) fun depth =>
      Call.run_preventExtensions host fuel ⟨heap, depth, client⟩ tower.target_ordinary
  cases verdict with
  | accepted => exact called
  | refused reason => cases seen

theorem call_defineOwnProperty {key : PropertyKey} {change : Descriptor} {after : Heap}
    (defined : heap.defineOwn target key change = (after, .ok .accepted)) :
    Call.run host (fuel + height + 1) (.defineOwnProperty proxy key change)
        ⟨heap, depth, client⟩ = .ok .accepted ⟨after, depth, client⟩ := by
  obtain ⟨verdict, called, seen⟩ := tower.call_ok chained fits host fuel client
    (.defineOwnProperty key change) .accepted after fun depth =>
      Call.run_defineOwn host fuel ⟨heap, depth, client⟩ tower.target_ordinary defined
  cases verdict with
  | accepted => exact called
  | refused reason => cases seen

end Heap.Tower

/-! ### The algorithms -/

namespace Machine

section Protect

variable {before heap : Heap} {limit height depth : Nat} {target proxy : ObjectId}
  (fits : depth + height ≤ limit) (host : Host σ) (fuel : Nat) (client : σ)

include fits

/-- The change is the one that protects the property as it is now. -/
private theorem protectingChange_tower (tower : heap.Tower limit target height proxy)
    (chained : heap.Chained) (level : Integrity) {key : PropertyKey} {current : Descriptor}
    (found : heap.getOwn target key = some current) :
    protectingChange (Call.run host (fuel + height + 1)) proxy level key ⟨heap, depth, client⟩ =
      .ok (some (current.protecting level)) ⟨heap, depth, client⟩ := by
  cases level with
  | «sealed» => rfl
  | frozen =>
      rw [protectingChange, Exec.bind_apply,
        tower.call_getOwnProperty chained fits host fuel client key, found]
      cases isAccessor : current.isAccessor <;> simp [isAccessor, Descriptor.protecting] <;> rfl

/-- The loop over the keys that are left: each property is there, and is done afterwards. -/
private theorem protectKeys_tower (tower : before.Tower limit target height proxy)
    (chained : before.Chained) (inRange : target < before.objects.size) {level : Integrity}
    (keys : List PropertyKey) {done : List PropertyKey}
    (securing : before.Securing target level done heap)
    (listed : ∀ key ∈ keys, key ∈ before.ownKeys target) :
    ∃ after, protectKeys (Call.run host (fuel + height + 1)) proxy level keys
        ⟨heap, depth, client⟩ = .ok () ⟨after, depth, client⟩ ∧
      before.Securing target level (keys.reverse ++ done) after := by
  induction keys generalizing heap done with
  | nil => exact ⟨heap, rfl, securing⟩
  | cons key rest inductionHypothesis =>
      have chained' := securing.chained_after chained
      have tower' := securing.tower chained tower
      have present : (heap.getOwn target key).isSome = true := by
        have isListed := listed key List.mem_cons_self
        rw [chained.wellFormed.mem_ownKeys] at isListed
        rcases securing.getOwn_cases key with kept | isDone
        · rwa [kept]
        · rwa [isDone, Option.isSome_map]
      obtain ⟨current, found⟩ := Option.isSome_iff_exists.mp present
      obtain ⟨next, accepted, securing'⟩ := securing.step inRange found
      obtain ⟨after, ended, secured⟩ := inductionHypothesis securing'
        fun other member => listed other (List.mem_cons_of_mem _ member)
      refine ⟨after, ?_, ?_⟩
      · rw [protectKeys, Exec.bind_apply,
          protectingChange_tower fits host fuel client tower' chained' level found]
        simp only
        rw [Exec.bind_apply, tower'.call_defineOwnProperty chained' fits host fuel client accepted]
        exact ended
      · rw [List.reverse_cons, List.append_assoc]
        exact secured

/-- The search among the keys reads the object and changes nothing. -/
private theorem keysHaveIntegrity_tower (tower : heap.Tower limit target height proxy)
    (chained : heap.Chained) (level : Integrity) (keys : List PropertyKey) :
    keysHaveIntegrity (Call.run host (fuel + height + 1)) proxy level keys
        ⟨heap, depth, client⟩ =
      .ok (keys.all fun key => (heap.getOwn target key).all (hasIntegrity level))
        ⟨heap, depth, client⟩ := by
  induction keys with
  | nil => rfl
  | cons key rest inductionHypothesis =>
      rw [keysHaveIntegrity, Exec.bind_apply,
        tower.call_getOwnProperty chained fits host fuel client key, List.all_cons]
      cases isFixed : (heap.getOwn target key).all (hasIntegrity level) with
      | false => simp only [isFixed]; rfl
      | true => simpa only [isFixed, if_true, Bool.true_and] using inductionHypothesis

/-- Extensions are prevented first, so that no key is added to the list. -/
private theorem setIntegrity_tower (tower : heap.Tower limit target height proxy)
    (isExotic : heap.isExotic proxy = true) (chained : heap.Chained)
    (inRange : target < heap.objects.size) (level : Integrity) :
    ∃ after, setIntegrity (Call.run host (fuel + height + 1)) proxy level
        ⟨heap, depth, client⟩ = .ok .accepted ⟨after, depth, client⟩ ∧
      heap.Secures target level after := by
  have closed := Heap.securing_preventExtensions chained inRange level
  have chained' := closed.chained_after chained
  have tower' := closed.tower chained tower
  have keys_eq : (heap.preventExtensions target).ownKeys target = heap.ownKeys target := by
    rw [chained'.wellFormed.ownKeys_eq, chained.wellFormed.ownKeys_eq,
      ← chained'.wellFormed.keys_eq, ← chained.wellFormed.keys_eq, closed.keys_eq]
  obtain ⟨after, ended, secured⟩ := protectKeys_tower fits host fuel client tower chained inRange
    (heap.ownKeys target) closed fun _ listed => listed
  refine ⟨after, ?_, secured.secures chained fun key listed => ?_⟩
  · rw [setIntegrity, Exec.heap_bind]
    simp only [isExotic, Bool.not_true, Bool.false_eq_true, if_false]
    rw [Exec.bind_apply, tower.call_preventExtensions chained fits host fuel client]
    simp only
    rw [Exec.bind_apply, tower'.call_allKeys chained' fits host fuel client, keys_eq]
    simp only
    rw [Exec.bind_apply, ended]
    rfl
  · rw [List.append_nil, List.mem_reverse]
    exact listed

private theorem testIntegrity_tower (tower : heap.Tower limit target height proxy)
    (isExotic : heap.isExotic proxy = true) (chained : heap.Chained) (level : Integrity) :
    testIntegrity (Call.run host (fuel + height + 1)) proxy level ⟨heap, depth, client⟩ =
      .ok (!heap.isExtensible target && (heap.ownKeys target).all fun key =>
        (heap.getOwn target key).all (hasIntegrity level)) ⟨heap, depth, client⟩ := by
  rw [testIntegrity, Exec.heap_bind]
  simp only [isExotic, Bool.not_true, Bool.false_eq_true, if_false]
  rw [Exec.bind_apply, tower.call_isExtensible chained fits host fuel client]
  cases heap.isExtensible target with
  | true => rfl
  | false =>
      simp only [Bool.false_eq_true, if_false]
      rw [Exec.bind_apply, tower.call_allKeys chained fits host fuel client]
      exact keysHaveIntegrity_tower fits host fuel client tower chained level _

end Protect

theorem hasIntegrity_iff (level : Integrity) (descriptor : Descriptor) :
    hasIntegrity level descriptor = true ↔ descriptor.isConfigurable = false ∧
      (level = .frozen → descriptor.isData = true → descriptor.isWritable = false) := by
  cases level <;> simp [hasIntegrity, imp_iff_not_or]

end Machine

/-- The listed keys are those of all properties. -/
theorem Heap.WellFormed.isProtected_iff_all {heap : Heap} (wellFormed : heap.WellFormed)
    (id : ObjectId) (level : Integrity) :
    ((heap.ownKeys id).all fun key =>
      (heap.getOwn id key).all (Machine.hasIntegrity level)) = true ↔
        heap.IsProtected id level := by
  rw [List.all_eq_true]
  simp only [Option.all_eq_true, Machine.hasIntegrity_iff]
  refine ⟨fun all key current found => ?_, fun isProtected key _ => isProtected key⟩
  have listed : key ∈ heap.ownKeys id := by
    rw [wellFormed.mem_ownKeys, found]
    rfl
  exact all key listed current found

/-- In every heap that programs reach, a tower that fits into the room of its stores is
protected to a level whether the caller is strict or not. The object in it is closed then, each
of its properties is protected as the level says, and nothing else has changed. A test tells
whether the object is not extensible and each of its properties is protected as they report. -/
theorem Heap.IsReached.integrity_through {heap : Heap} (reached : heap.IsReached)
    {limit height depth : Nat} {target proxy : ObjectId}
    (tower : heap.Tower limit target (height + 1) proxy) (inRange : target < heap.objects.size)
    (fits : depth + (height + 1) ≤ limit) (host : Host σ) {fuel : Nat}
    (enough : height + 1 < fuel) (client : σ) (level : Integrity) :
    (∃ after, heap.Secures target level after ∧ ∀ strict,
      (Machine.setIntegrity (Call.run host fuel) proxy level >>= fun verdict =>
        Exec.ofExcept (verdict.report strict)) ⟨heap, depth, client⟩ =
          .ok true ⟨after, depth, client⟩) ∧
    ∃ answer, Machine.testIntegrity (Call.run host fuel) proxy level ⟨heap, depth, client⟩ =
        .ok answer ⟨heap, depth, client⟩ ∧
      (answer = true ↔ heap.isExtensible target = false ∧ heap.IsProtected target level) := by
  have chained := reached.chained
  have isExotic := tower.isExotic
  obtain ⟨spare, rfl⟩ := Nat.exists_eq_add_of_lt enough
  have order : height + 1 + spare + 1 = spare + (height + 1) + 1 := by omega
  rw [order]
  refine ⟨?_, _, Machine.testIntegrity_tower fits host spare client tower isExotic chained level,
    ?_⟩
  · obtain ⟨after, ended, secures⟩ := Machine.setIntegrity_tower fits host spare client tower
      isExotic chained inRange level
    refine ⟨after, secures, fun strict => ?_⟩
    rw [Exec.bind_apply, ended]
    rfl
  · rw [Bool.and_eq_true, Bool.not_eq_true', chained.wellFormed.isProtected_iff_all]

/-- Makes an object with a property, an object without, a proxy for the first, and a proxy for
that proxy. -/
def fieldWrappedTwice : Script Unit Unit :=
  .ask (.newObject 0 none false) fun _ =>
  .ask (.newObject 0 none false) fun _ =>
  .ask (.call (.defineOwnProperty 0 (.symbol ⟨0, none⟩) (.data .null .assigned))) fun _ =>
  .ask (.newProxy 0 0 1) fun _ =>
  .ask (.newProxy 0 2 1) fun _ => .done ()

/-- The property is not frozen, and is then frozen through both proxies. -/
theorem Heap.IsReached.integrity_through_twoProxies :
    let host : Host Unit := fun _ _ _ => .done (.ok .undefined)
    let heap := (Exec.reached (fieldWrappedTwice.grounded.run host.grounded 1)
      ⟨.start {}, 0, ()⟩).heap
    let key := PropertyKey.symbol ⟨0, none⟩
    heap.IsReached ∧ heap.Tower 2 0 2 3 ∧ 0 < heap.objects.size ∧
      Machine.testIntegrity (Call.run host 3) 3 .frozen ⟨heap, 0, ()⟩ =
        .ok false ⟨heap, 0, ()⟩ ∧
      ∃ after, (Machine.setIntegrity (Call.run host 3) 3 .frozen >>= fun verdict =>
          Exec.ofExcept (verdict.report true)) ⟨heap, 0, ()⟩ = .ok true ⟨after, 0, ()⟩ ∧
        after.getOwn 0 key = some (.data .null ⟨false, true, false⟩) := by
  intro host heap key
  have reached : heap.IsReached := ⟨Unit, Unit, host, fieldWrappedTwice, {}, 1, (), rfl⟩
  have inRange : 0 < heap.objects.size := by decide
  have lacks : heap.LacksTraps 1 := by
    refine ⟨[1], .ordinary rfl .null, fun id member trap => ?_⟩
    obtain rfl := List.mem_singleton.mp member
    cases trap <;> rfl
  have inner : heap.Tower 2 0 1 2 :=
    .wrap (rfl : heap.proxy? 2 = some ⟨0, 1, false⟩) rfl lacks (by decide) (.base rfl)
  have tower : heap.Tower 2 0 2 3 :=
    .wrap (rfl : heap.proxy? 3 = some ⟨2, 1, false⟩) rfl lacks (by decide) inner
  have isExtensible : heap.isExtensible 0 = true := by decide
  have found : heap.getOwn 0 key = some (.data .null .assigned) := by decide
  clear_value heap
  obtain ⟨⟨after, secures, accepted⟩, answer, tested, isFrozen⟩ :=
    reached.integrity_through tower inRange (Nat.le_refl 2) host (Nat.lt_succ_self 2) () .frozen
  refine ⟨reached, tower, inRange, ?_, after, accepted true, ?_⟩
  · cases answer with
    | false => exact tested
    | true => simp [isExtensible] at isFrozen
  · rw [secures.getOwn_eq, found]
    rfl

end ObjectModel
