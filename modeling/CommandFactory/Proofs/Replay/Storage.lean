import CommandFactory.Proofs.Keyed
import CommandFactory.Proofs.Replay.Outcome

/-!
# Storage of replays

What a part of a replay does to the store. An object that is made stays, and a slot changes only where
it is set (`Store.Keeps`). `Replay.Ends` says of a replay from one store what it gives and which store it
leaves, if it ends well; it has a rule for each way to put replays together.
-/

set_option autoImplicit false

namespace CommandFactory

/-! ## Stores -/

namespace Store

variable {store : Store} {ref other : ObjectRef}

/-- The number of objects. -/
def size (store : Store) : Nat := store.objects.length

/-- The object of the reference is there. -/
def Has (store : Store) (ref : ObjectRef) : Prop := ref.index < store.size

theorem slot?_of_not_has (h : ¬ store.Has ref) (name : String) : store.slot? ref name = none := by
  rw [slot?, object?, List.getElem?_eq_none (Nat.not_lt.1 h), Option.bind_none]

@[simp] theorem size_new (store : Store) (type : String) :
    (store.new type).2.size = store.size + 1 := by
  simp [new, size]

theorem has_new (store : Store) (type : String) : (store.new type).2.Has (store.new type).1 := by
  rw [Has, size_new]
  exact Nat.lt_succ_self store.size

theorem not_has_new (store : Store) (type : String) : ¬ store.Has (store.new type).1 :=
  Nat.lt_irrefl store.size

/-- A new object has no slots, and the others stay as they are. -/
theorem slot?_new (store : Store) (type : String) (ref : ObjectRef) (name : String) :
    (store.new type).2.slot? ref name = store.slot? ref name := by
  rcases Nat.lt_trichotomy ref.index store.objects.length with hold | hnew | hnone
  · simp only [slot?, object?, new, List.getElem?_append_left hold]
  · rw [slot?_of_not_has (Nat.not_lt.2 (Nat.le_of_eq hnew.symm))]
    simp only [slot?, object?, new, hnew, List.getElem?_concat_length]
    rfl
  · rw [slot?_of_not_has (Nat.not_lt.2 (Nat.le_of_lt hnone))]
    refine slot?_of_not_has (Nat.not_lt.2 ?_) name
    rw [size_new]
    exact hnone

@[simp] theorem size_setSlot (store : Store) (ref : ObjectRef) (name : String) (slot : Slot) :
    (store.setSlot ref name slot).size = store.size := by
  unfold setSlot
  split <;> simp [size]

theorem setSlot_of_not_has (h : ¬ store.Has ref) (name : String) (slot : Slot) :
    store.setSlot ref name slot = store := by
  rw [setSlot, object?, List.getElem?_eq_none (Nat.not_lt.1 h)]

/-- A slot that is set is the only one that changes. -/
theorem slot?_setSlot (h : store.Has ref) (name : String) (slot : Slot) (other : ObjectRef)
    (field : String) :
    (store.setSlot ref name slot).slot? other field =
      if ref = other ∧ name = field then some slot else store.slot? other field := by
  obtain ⟨object, hobject⟩ : ∃ object, store.object? ref = some object :=
    ⟨_, List.getElem?_eq_getElem h⟩
  rw [setSlot, hobject]
  by_cases hsame : ref = other
  · subst hsame
    simp only [slot?, object?, List.getElem?_set_self h, Option.bind_some, Object.slot?,
      Object.setSlot, Keyed.get?_put, true_and]
    rw [object?] at hobject
    rw [hobject, Option.bind_some]
    split <;> rfl
  · have hne : ref.index ≠ other.index := fun heq => hsame (congrArg ObjectRef.mk heq)
    simp only [slot?, object?, List.getElem?_set_ne hne, hsame, false_and, if_false]

/-! ### Changes -/

/-- All objects stay, and slots change only of objects that may change. -/
structure Keeps (before : Store) (changed : ObjectRef → Prop) (after : Store) : Prop where
  size : before.size ≤ after.size
  slots : ∀ ref, before.Has ref → ¬ changed ref → ∀ name, after.slot? ref name = before.slot? ref name

namespace Keeps

variable {before between after : Store} {changed changed' : ObjectRef → Prop}

theorem has (h : before.Keeps changed after) (hhas : before.Has ref) : after.Has ref :=
  Nat.lt_of_lt_of_le hhas h.size

theorem refl (store : Store) (changed : ObjectRef → Prop) : store.Keeps changed store :=
  ⟨Nat.le_refl _, fun _ _ _ _ => rfl⟩

/-- What the second change may do to objects that were there before the first one counts. -/
theorem trans (hfirst : before.Keeps changed between) (hsecond : between.Keeps changed' after)
    (h : ∀ ref, before.Has ref → changed' ref → changed ref) : before.Keeps changed after := by
  refine ⟨Nat.le_trans hfirst.size hsecond.size, fun ref hhas hnot name => ?_⟩
  rw [hsecond.slots ref (hfirst.has hhas) (fun hchanged => hnot (h ref hhas hchanged)) name,
    hfirst.slots ref hhas hnot name]

theorem mono (hkeeps : before.Keeps changed after)
    (h : ∀ ref, before.Has ref → changed ref → changed' ref) : before.Keeps changed' after :=
  (refl before changed').trans hkeeps h

theorem new (store : Store) (type : String) (changed : ObjectRef → Prop) :
    store.Keeps changed (store.new type).2 := by
  refine ⟨?_, fun ref _ _ name => store.slot?_new type ref name⟩
  rw [size_new]
  exact Nat.le_succ _

theorem setSlot (store : Store) (ref : ObjectRef) (name : String) (slot : Slot) :
    store.Keeps (· = ref) (store.setSlot ref name slot) := by
  refine ⟨Nat.le_of_eq (store.size_setSlot ref name slot).symm, fun other hother hne field => ?_⟩
  by_cases hhas : store.Has ref
  · rw [slot?_setSlot hhas, if_neg fun hsame => hne hsame.1.symm]
  · rw [setSlot_of_not_has hhas]

end Keeps

/-! ### Attached objects -/

/-- The store with a new object, which a slot of another object holds. -/
def attach (store : Store) (object : ObjectRef) (field type : String) : Store :=
  (store.new type).2.setSlot object field (.object (store.new type).1)

variable {object : ObjectRef}

@[simp] theorem size_attach (store : Store) (object : ObjectRef) (field type : String) :
    (store.attach object field type).size = store.size + 1 := by
  rw [attach, size_setSlot, size_new]

theorem has_attach (store : Store) (object : ObjectRef) (field type : String) :
    (store.attach object field type).Has (store.new type).1 := by
  rw [Has, size_attach]
  exact Nat.lt_succ_self store.size

theorem Keeps.attach (store : Store) (object : ObjectRef) (field type : String) :
    store.Keeps (· = object) (store.attach object field type) :=
  (Keeps.new store type _).trans (.setSlot ..) fun _ _ heq => heq

theorem slot?_attach (h : store.Has object) (field type : String) (other : ObjectRef)
    (name : String) :
    (store.attach object field type).slot? other name =
      if object = other ∧ field = name then some (.object (store.new type).1)
      else store.slot? other name := by
  rw [Store.attach, slot?_setSlot ((Keeps.new store type (· = object)).has h), slot?_new]

end Store

/-! ## Replays -/

namespace Replay

variable {α β : Type}

/-- If the replay ends well from the store, its result and the store it leaves satisfy `post`. -/
def Ends (replay : Replay α) (before : Store) (post : α → Store → Prop) : Prop :=
  ∀ a after, replay before = .ok (a, after) → post a after

namespace Ends

variable {before : Store} {replay : Replay α} {post post' : α → Store → Prop}

/-- What the replay gives is known by its equation. -/
theorem self : replay.Ends before fun a after => replay before = .ok (a, after) := fun _ _ hrun => hrun

theorem pure {a : α} (h : post a before) : Ends (Pure.pure a) before post := by
  rintro _ _ ⟨⟩
  exact h

theorem bind {next : α → Replay β} {mid : α → Store → Prop} {post : β → Store → Prop}
    (h : replay.Ends before mid)
    (hnext : ∀ a between, mid a between → (next a).Ends between post) :
    (replay >>= next).Ends before post := by
  intro b after hrun
  change (replay before).bind (fun result => next result.1 result.2) = .ok (b, after) at hrun
  cases hfirst : replay before with
  | error fault =>
    rw [hfirst] at hrun
    cases hrun
  | ok result =>
    rw [hfirst] at hrun
    exact hnext result.1 result.2 (h _ _ hfirst) b after hrun

theorem map {f : α → β} (h : replay.Ends before post) :
    (f <$> replay).Ends before fun b after => ∃ a, post a after ∧ b = f a :=
  h.bind fun a _ ha => pure ⟨a, ha, rfl⟩

theorem mono (h : replay.Ends before post) (himp : ∀ a after, post a after → post' a after) :
    replay.Ends before post' :=
  fun a after hrun => himp a after (h a after hrun)

theorem fail {fault : ReplayFault} : (Replay.fail fault : Replay α).Ends before post := by
  rintro _ _ ⟨⟩

theorem orFail {value : Option α} {fault : ReplayFault} :
    (Replay.orFail value fault).Ends before fun a after => value = some a ∧ after = before := by
  cases value with
  | none => exact fail
  | some a => exact pure ⟨rfl, rfl⟩

theorem newObject (type : String) :
    (Replay.newObject type).Ends before fun ref after =>
      ref = (before.new type).1 ∧ after = (before.new type).2 := by
  rintro _ _ ⟨⟩
  exact ⟨rfl, rfl⟩

theorem setSlot (ref : ObjectRef) (name : String) (slot : Slot) :
    (Replay.setSlot ref name slot).Ends before fun _ after => after = before.setSlot ref name slot := by
  rintro _ _ ⟨⟩
  rfl

theorem get : (MonadState.get : Replay Store).Ends before fun store after =>
    store = before ∧ after = before := by
  rintro _ _ ⟨⟩
  exact ⟨rfl, rfl⟩

theorem set (store : Store) : (MonadState.set store : Replay PUnit).Ends before fun _ after =>
    after = store := by
  rintro _ _ ⟨⟩
  rfl

/-- An invariant that tells the items already gone through holds after all of them. -/
theorem foldlM {items : List α} {round : β → α → Replay β} {b : β}
    (inv : List α → β → Store → Prop) (h : inv [] b before)
    (hround : ∀ done a, a ∈ items → ∀ b between, inv done b between →
      (round b a).Ends between (inv (done ++ [a]))) :
    (items.foldlM round b).Ends before (inv items) := by
  -- The items before those that are left are kept in front.
  suffices hfrom : ∀ (left done : List α) (b : β) (between : Store), done ++ left = items →
      inv done b between → (left.foldlM round b).Ends between (inv items) from
    hfrom items [] b before rfl h
  intro left
  induction left with
  | nil =>
    intro done b between heq hinv
    rw [List.append_nil] at heq
    exact pure (heq ▸ hinv)
  | cons a rest ih =>
    intro done b between heq hinv
    have hmem : a ∈ items := heq ▸ List.mem_append_right _ (List.mem_cons_self ..)
    rw [List.foldlM_cons]
    refine (hround done a hmem b between hinv).bind fun next after hnext => ?_
    exact ih (done ++ [a]) next after (by simpa using heq) hnext

/-! ### Frames -/

theorem needTarget {frame : Frame} {object : ObjectRef} (h : frame.target = some object) :
    frame.needTarget.Ends before fun found after => found = object ∧ after = before :=
  orFail.mono fun _ _ hfound => ⟨Option.some.inj (hfound.1.symm.trans h), hfound.2⟩

theorem needSpec {frame : Frame} {spec : CommandSpec} (h : frame.spec = some spec) :
    frame.needSpec.Ends before fun found after => found = spec ∧ after = before :=
  orFail.mono fun _ _ hfound => ⟨Option.some.inj (hfound.1.symm.trans h), hfound.2⟩

theorem changeSpec {frame : Frame} {spec : CommandSpec} (h : frame.spec = some spec)
    (change : CommandSpec → CommandSpec) :
    (frame.changeSpec change).Ends before fun next after =>
      next = { frame with spec := some (change spec) } ∧ after = before := by
  refine (needSpec h).bind ?_
  rintro _ _ ⟨rfl, rfl⟩
  exact pure ⟨rfl, rfl⟩

end Ends

end Replay

end CommandFactory
