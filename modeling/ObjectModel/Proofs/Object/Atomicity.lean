import ObjectModel.Proofs.Object.Evolution

/-!
# Mutations that happen entirely or not at all

A mutation is accepted, and then it keeps the prototype link, or it is refused or fails, and then
its object is as it was.  The faults of a mutation are conversions that fail and requests that no
object can meet, never refusals: what an object refuses, it refuses by its verdict.
-/

namespace ObjectModel

/-- Whether a mutation of `before` that ended with an outcome took place entirely or not at all. -/
inductive AllOrNothing {σ : Type} (link : σ → Option ObjectId) (before : σ) :
    Except Fault (Verdict × σ) → Prop
  | accepted {after : σ} (linked : link after = link before) :
      AllOrNothing link before (.ok (.accepted, after))
  | refused (why : Refusal) : AllOrNothing link before (.ok (.refused why, before))
  | faulty {fault : Fault} (unrefused : fault.isRefusal = false) :
      AllOrNothing link before (.error fault)

namespace AllOrNothing

variable {σ τ : Type} {link : σ → Option ObjectId} {before : σ}

theorem within {outcome : Except Fault (Verdict × σ)} (whole : AllOrNothing link before outcome)
    (wrap : σ → τ) {linkOf : τ → Option ObjectId}
    (linked : ∀ part, linkOf (wrap part) = link part) :
    AllOrNothing linkOf (wrap before) (outcome.map (·.map id wrap)) := by
  cases whole with
  | accepted same =>
    apply AllOrNothing.accepted
    rw [linked, linked, same]
  | refused why => exact .refused why
  | faulty unrefused => exact .faulty unrefused

theorem of_unchanged {ended : Verdict × σ} (unchanged : ended.2 = before) :
    AllOrNothing link before (.ok ended) := by
  obtain ⟨verdict, after⟩ := ended
  cases unchanged
  cases verdict with
  | accepted => exact .accepted rfl
  | refused why => exact .refused why

theorem of_accepted {ended : Verdict × σ} (accepted : ended.1 = .accepted)
    (linked : link ended.2 = link before) : AllOrNothing link before (.ok ended) := by
  obtain ⟨verdict, after⟩ := ended
  cases accepted
  exact .accepted linked

theorem linked {verdict : Verdict} {after : σ} {outcome : Except Fault (Verdict × σ)}
    (whole : AllOrNothing link before outcome) (done : outcome = .ok (verdict, after)) :
    link after = link before := by
  rw [done] at whole
  cases whole with
  | accepted same => exact same
  | refused why => rfl

end AllOrNothing

theorem isRefusal_of_toArrayLength {value : Value} {fault : Fault}
    (failed : toArrayLength value = .error fault) : fault.isRefusal = false := by
  simp only [toArrayLength] at failed
  split at failed
  next =>
    split at failed
    next => cases failed
    next =>
      cases failed
      rfl
  next =>
    cases failed
    rfl

theorem isRefusal_of_resolution {key : Key} {existing : Option Slot} {request : Request}
    {extensible : Bool} {fault : Fault}
    (failed : resolution key existing request extensible = .error fault) :
    fault.isRefusal = false := by
  unfold resolution Request.validate at failed
  cases mixed : request.isMixed with
  | true =>
    rw [mixed] at failed
    cases failed
    rfl
  | false =>
    rw [mixed] at failed
    cases existing <;> cases failed

namespace OrdinaryObject

theorem allOrNothing_add (object : OrdinaryObject) (key : Key) (value : Value) :
    AllOrNothing prototype object (.ok (object.add key value)) := by
  unfold add
  split
  next => exact .accepted rfl
  next => exact .refused _

theorem allOrNothing_write (object : OrdinaryObject) (key : Key) (value : Value) :
    AllOrNothing prototype object (.ok (object.write key value)) := by
  unfold write
  split
  next => exact object.allOrNothing_add key value
  next =>
    split
    next => exact .accepted rfl
    next => exact .refused _

theorem allOrNothing_define (object : OrdinaryObject) (key : Key) (request : Request) :
    AllOrNothing prototype object (object.define key request) := by
  unfold define
  cases decided : resolution key (object.getOwn key) request object.extensible with
  | error fault => exact .faulty (isRefusal_of_resolution decided)
  | ok resolution =>
    cases resolution with
    | stored slot => exact .accepted rfl
    | refused why => exact .refused why

theorem allOrNothing_delete (object : OrdinaryObject) (key : Key) :
    AllOrNothing prototype object (.ok (object.delete key)) := by
  unfold delete
  split
  next => exact .accepted rfl
  next =>
    split
    next => exact .accepted rfl
    next => exact .refused _

theorem allOrNothing_mutate (object : OrdinaryObject) (mutation : OwnMutation) :
    AllOrNothing prototype object (object.mutate mutation) := by
  cases mutation with
  | write key value => exact object.allOrNothing_write key value
  | add key value => exact object.allOrNothing_add key value
  | define key request => exact object.allOrNothing_define key request
  | delete key => exact object.allOrNothing_delete key

end OrdinaryObject

namespace StringObject

theorem allOrNothing_withBase {string : StringObject}
    {outcome : Except Fault (Verdict × OrdinaryObject)}
    (whole : AllOrNothing OrdinaryObject.prototype string.base outcome) :
    AllOrNothing (·.base.prototype) string
      (outcome.map (·.map id fun base => { string with base })) :=
  whole.within (fun base => { string with base }) fun _ => rfl

/-- The properties of the text stay whatever is requested of them. -/
theorem allOrNothing_define (string : StringObject) (key : Key) (request : Request) :
    AllOrNothing (·.base.prototype) string (string.define key request) := by
  unfold define
  split
  next slot _ =>
    cases decided : resolution key (some slot) request true with
    | error fault => exact .faulty (isRefusal_of_resolution decided)
    | ok resolution =>
      cases resolution with
      | stored slot => exact .accepted rfl
      | refused why => exact .refused why
  next =>
    exact allOrNothing_withBase (string.base.allOrNothing_define key request)

theorem allOrNothing_write (string : StringObject) (key : Key) (value : Value) :
    AllOrNothing (·.base.prototype) string (.ok (string.write key value)) := by
  unfold write
  split
  next => exact .refused _
  next => exact allOrNothing_withBase (string.base.allOrNothing_write key value)

theorem allOrNothing_add (string : StringObject) (key : Key) (value : Value) :
    AllOrNothing (·.base.prototype) string (.ok (string.add key value)) := by
  unfold add
  split
  next => exact .refused _
  next => exact allOrNothing_withBase (string.base.allOrNothing_add key value)

theorem allOrNothing_delete (string : StringObject) (key : Key) :
    AllOrNothing (·.base.prototype) string (.ok (string.delete key)) := by
  unfold delete
  split
  next => exact .refused _
  next => exact allOrNothing_withBase (string.base.allOrNothing_delete key)

theorem allOrNothing_mutate (string : StringObject) (mutation : OwnMutation) :
    AllOrNothing (·.base.prototype) string (string.mutate mutation) := by
  cases mutation with
  | write key value => exact string.allOrNothing_write key value
  | add key value => exact string.allOrNothing_add key value
  | define key request => exact string.allOrNothing_define key request
  | delete key => exact string.allOrNothing_delete key

end StringObject

theorem Scalar.exists_mismatch_of_integerOf {value : Value} {fault : Fault}
    (failed : integerOf value = .error fault) : ∃ target, fault = mismatch value target := by
  unfold integerOf at failed
  split at failed
  next =>
    split at failed
    next => cases failed
    next =>
      cases failed
      exact ⟨_, rfl⟩
  next =>
    cases failed
    exact ⟨_, rfl⟩

theorem Scalar.exists_mismatch_of_bounds {α : Type} {bounds : Prop} [Decidable bounds]
    {result : α} {value : Value} {target : String} {fault : Fault}
    (failed : (if bounds then Except.ok result else .error (mismatch value target)) =
      .error fault) :
    ∃ target, fault = mismatch value target := by
  split at failed
  next => cases failed
  next =>
    cases failed
    exact ⟨target, rfl⟩

theorem Scalar.exists_mismatch_of_ofValue {scalar : Scalar} {value : Value} {fault : Fault}
    (failed : scalar.ofValue value = .error fault) : ∃ target, fault = mismatch value target := by
  cases scalar
  case number => cases value <;> cases failed <;> exact ⟨_, rfl⟩
  case boolean => cases value <;> cases failed <;> exact ⟨_, rfl⟩
  case string => cases value <;> cases failed <;> exact ⟨_, rfl⟩
  all_goals
    cases converted : integerOf value with
    | error why =>
      simp only [Scalar.ofValue, converted, bind, Except.bind] at failed
      cases failed
      exact Scalar.exists_mismatch_of_integerOf converted
    | ok n =>
      simp only [Scalar.ofValue, converted, bind, Except.bind] at failed
      first
        | exact Scalar.exists_mismatch_of_bounds failed
        | cases failed

theorem ElementType.exists_mismatch_of_ofValue {type : ElementType} {value : Value}
    {fault : Fault} (failed : type.ofValue value = .error fault) :
    ∃ target, fault = Scalar.mismatch value target := by
  induction type generalizing fault with
  | plain scalar => exact Scalar.exists_mismatch_of_ofValue failed
  | optional inner inductionHypothesis =>
    simp only [ElementType.ofValue] at failed
    split at failed
    next => cases failed
    next =>
      cases converted : inner.ofValue value with
      | error why =>
        rw [converted] at failed
        cases failed
        exact inductionHypothesis converted
      | ok element =>
        rw [converted] at failed
        cases failed

theorem ElementType.isRefusal_of_ofValue {type : ElementType} {value : Value} {fault : Fault}
    (failed : type.ofValue value = .error fault) : fault.isRefusal = false := by
  obtain ⟨target, rfl⟩ := ElementType.exists_mismatch_of_ofValue failed
  rfl

namespace HostMap

variable {keyType : KeyType} {elementType : ElementType}

def mutate (view : HostMap keyType elementType) :
    OwnMutation → Except Fault (Verdict × HostMap keyType elementType)
  | .write key value => view.write key value
  | .add key value => view.add key value
  | .define key request => view.define key request
  | .delete key => .ok (view.delete key)

theorem allOrNothing_withBase {view : HostMap keyType elementType}
    {outcome : Except Fault (Verdict × OrdinaryObject)}
    (whole : AllOrNothing OrdinaryObject.prototype view.base outcome) :
    AllOrNothing (·.base.prototype) view
      (outcome.map (·.map id fun base => { view with base })) :=
  whole.within (fun base => { view with base }) fun _ => rfl

theorem allOrNothing_store (view : HostMap keyType elementType) (hostKey : keyType.Carrier)
    (value : Value) : AllOrNothing (·.base.prototype) view (view.store hostKey value) := by
  unfold store
  cases converted : elementType.ofValue value with
  | error fault => exact .faulty (ElementType.isRefusal_of_ofValue converted)
  | ok element => exact .accepted rfl

theorem allOrNothing_define (view : HostMap keyType elementType) (key : Key) (request : Request) :
    AllOrNothing (·.base.prototype) view (view.define key request) := by
  unfold define
  split
  next hostKey _ =>
    split
    next why _ => exact .refused why
    next =>
      simp only
      split
      next => exact .refused _
      next =>
        split
        next value _ => exact view.allOrNothing_store hostKey value
        next =>
          split
          next => exact .accepted rfl
          next => exact view.allOrNothing_store hostKey .undefined
  next => exact allOrNothing_withBase (view.base.allOrNothing_define key request)

theorem allOrNothing_write (view : HostMap keyType elementType) (key : Key) (value : Value) :
    AllOrNothing (·.base.prototype) view (view.write key value) := by
  unfold write
  split
  next hostKey _ =>
    split
    next => exact view.allOrNothing_store hostKey value
    next => exact .refused _
  next => exact allOrNothing_withBase (view.base.allOrNothing_write key value)

theorem allOrNothing_add (view : HostMap keyType elementType) (key : Key) (value : Value) :
    AllOrNothing (·.base.prototype) view (view.add key value) := by
  unfold add
  split
  next hostKey _ =>
    split
    next => exact view.allOrNothing_store hostKey value
    next => exact .refused _
  next => exact allOrNothing_withBase (view.base.allOrNothing_add key value)

theorem allOrNothing_delete (view : HostMap keyType elementType) (key : Key) :
    AllOrNothing (·.base.prototype) view (.ok (view.delete key)) := by
  unfold delete
  split
  next => exact .accepted rfl
  next => exact allOrNothing_withBase (view.base.allOrNothing_delete key)

theorem allOrNothing_mutate (view : HostMap keyType elementType) (mutation : OwnMutation) :
    AllOrNothing (·.base.prototype) view (view.mutate mutation) := by
  cases mutation with
  | write key value => exact view.allOrNothing_write key value
  | add key value => exact view.allOrNothing_add key value
  | define key request => exact view.allOrNothing_define key request
  | delete key => exact view.allOrNothing_delete key

end HostMap

namespace HostSequence

variable {elementType : ElementType}

def mutate (view : HostSequence elementType) :
    OwnMutation → Except Fault (Verdict × HostSequence elementType)
  | .write key value => view.write key value
  | .add key value => view.add key value
  | .define key request => view.define key request
  | .delete key => .ok (view.delete key)

theorem allOrNothing_withBase {view : HostSequence elementType}
    {outcome : Except Fault (Verdict × OrdinaryObject)}
    (whole : AllOrNothing OrdinaryObject.prototype view.base outcome) :
    AllOrNothing (·.base.prototype) view
      (outcome.map (·.map id fun base => { view with base })) :=
  whole.within (fun base => { view with base }) fun _ => rfl

theorem allOrNothing_store (view : HostSequence elementType) (index : Nat) (value : Value) :
    AllOrNothing (·.base.prototype) view (view.store index value) := by
  unfold store
  cases converted : elementType.ofValue value with
  | error fault => exact .faulty (ElementType.isRefusal_of_ofValue converted)
  | ok item =>
    simp only [bind, Except.bind]
    split
    next => exact .accepted rfl
    next =>
      split
      next => exact .accepted rfl
      next => exact .refused _

theorem allOrNothing_resize (view : HostSequence elementType) (value : Value) :
    AllOrNothing (·.base.prototype) view (view.resize value) := by
  unfold resize
  cases converted : toArrayLength value with
  | error fault => exact .faulty (isRefusal_of_toArrayLength converted)
  | ok length =>
    simp only [bind, Except.bind]
    split
    next => exact .accepted rfl
    next =>
      split
      next => exact .accepted rfl
      next => exact .refused _

theorem allOrNothing_define (view : HostSequence elementType) (key : Key) (request : Request) :
    AllOrNothing (·.base.prototype) view (view.define key request) := by
  cases key with
  | index i =>
    simp only [define]
    split
    next why _ => exact .refused why
    next value _ _ => exact view.allOrNothing_store i.toNat value
    next => exact .accepted rfl
  | named text =>
    simp only [define]
    split
    next =>
      split
      next => exact .refused _
      next =>
        split
        next value _ => exact view.allOrNothing_resize value
        next => exact .accepted rfl
    next =>
      exact allOrNothing_withBase (view.base.allOrNothing_define (.named text) request)

theorem allOrNothing_write (view : HostSequence elementType) (key : Key) (value : Value) :
    AllOrNothing (·.base.prototype) view (view.write key value) := by
  cases key with
  | index i => exact view.allOrNothing_store i.toNat value
  | named text =>
    simp only [write]
    split
    next => exact view.allOrNothing_resize value
    next =>
      exact allOrNothing_withBase (view.base.allOrNothing_write (.named text) value)

theorem allOrNothing_add (view : HostSequence elementType) (key : Key) (value : Value) :
    AllOrNothing (·.base.prototype) view (view.add key value) := by
  cases key with
  | index i => exact view.allOrNothing_store i.toNat value
  | named text =>
    exact allOrNothing_withBase (view.base.allOrNothing_add (.named text) value)

theorem allOrNothing_delete (view : HostSequence elementType) (key : Key) :
    AllOrNothing (·.base.prototype) view (.ok (view.delete key)) := by
  cases key with
  | index i => exact .accepted rfl
  | named text =>
    simp only [delete]
    split
    next => exact .refused _
    next =>
      exact allOrNothing_withBase (view.base.allOrNothing_delete (.named text))

theorem allOrNothing_mutate (view : HostSequence elementType) (mutation : OwnMutation) :
    AllOrNothing (·.base.prototype) view (view.mutate mutation) := by
  cases mutation with
  | write key value => exact view.allOrNothing_write key value
  | add key value => exact view.allOrNothing_add key value
  | define key request => exact view.allOrNothing_define key request
  | delete key => exact view.allOrNothing_delete key

end HostSequence

end ObjectModel
