import CommandFactory.Replay.Execution

/-!
# Outcomes of replays

`Replay.Meets allowed replay post` says that from every store the replay ends with a result that
satisfies `post`, or with a fault that is allowed. With few faults allowed this says that a replay is
safe; with all of them allowed it says what a replay gives if it ends well.
-/

set_option autoImplicit false

namespace CommandFactory.Replay

variable {α β : Type} {allowed : ReplayFault → Prop}

/-- The replay ends with a result of the property or with an allowed fault. -/
def Meets (allowed : ReplayFault → Prop) (replay : Replay α) (post : α → Prop) : Prop :=
  ∀ store, match replay store with
    | .ok (a, _) => post a
    | .error fault => allowed fault

theorem Meets.pure {a : α} {post : α → Prop} (h : post a) :
    Meets allowed (Pure.pure a) post := fun _ => h

theorem Meets.bind {replay : Replay α} {next : α → Replay β} {mid : α → Prop} {post : β → Prop}
    (h : Meets allowed replay mid) (hnext : ∀ a, mid a → Meets allowed (next a) post) :
    Meets allowed (replay >>= next) post := by
  intro store
  have hfirst := h store
  change match (replay store).bind fun p => next p.1 p.2 with
    | .ok (a, _) => post a
    | .error fault => allowed fault
  cases hrun : replay store with
  | error fault =>
    rw [hrun] at hfirst
    exact hfirst
  | ok result =>
    rw [hrun] at hfirst
    exact hnext result.1 hfirst result.2

theorem Meets.map {replay : Replay α} {mid : α → Prop} {f : α → β} (h : Meets allowed replay mid) :
    Meets allowed (f <$> replay) fun b => ∃ a, mid a ∧ b = f a :=
  h.bind fun a ha => Meets.pure ⟨a, ha, rfl⟩

theorem Meets.mono {replay : Replay α} {post post' : α → Prop} (h : Meets allowed replay post)
    (himp : ∀ a, post a → post' a) : Meets allowed replay post' := by
  intro store
  have hstore := h store
  cases hrun : replay store with
  | error fault =>
    rw [hrun] at hstore
    exact hstore
  | ok result =>
    rw [hrun] at hstore
    exact himp result.1 hstore

theorem Meets.fail {fault : ReplayFault} {post : α → Prop} (h : allowed fault) :
    Meets allowed (fail fault) post := fun _ => h

theorem Meets.orFail {value : Option α} {fault : ReplayFault} {post : α → Prop}
    (hsome : ∀ a, value = some a → post a) (hnone : value = none → allowed fault) :
    Meets allowed (orFail value fault) post := by
  cases value with
  | none => exact Meets.fail (hnone rfl)
  | some a => exact Meets.pure (hsome a rfl)

theorem Meets.newObject (type : String) : Meets allowed (newObject type) fun _ => True :=
  fun _ => trivial

theorem Meets.setSlot (ref : ObjectRef) (name : String) (slot : Slot) :
    Meets allowed (setSlot ref name slot) fun _ => True :=
  fun _ => trivial

theorem Meets.get : Meets allowed (MonadState.get : Replay Store) fun _ => True :=
  fun _ => trivial

theorem Meets.set (store : Store) : Meets allowed (MonadState.set store : Replay PUnit) fun _ => True :=
  fun _ => trivial

/-- An invariant of every round holds after all rounds. -/
theorem Meets.foldlM {items : List α} {round : β → α → Replay β} {b : β} (inv : β → Prop)
    (h : inv b) (hround : ∀ a ∈ items, ∀ b, inv b → Meets allowed (round b a) inv) :
    Meets allowed (items.foldlM round b) inv := by
  induction items generalizing b with
  | nil => exact Meets.pure h
  | cons a rest ih =>
    rw [List.foldlM_cons]
    refine (hround a (List.mem_cons_self ..) b h).bind fun c hc => ?_
    exact ih hc fun a ha => hround a (List.mem_cons_of_mem _ ha)

/-! ## Frames -/

theorem Meets.needTarget {frame : Frame} {object : ObjectRef} (h : frame.target = some object) :
    Meets allowed frame.needTarget fun found => found = object :=
  Meets.orFail (fun found hfound => Option.some.inj (hfound.symm.trans h)) (by simp [h])

theorem Meets.needSpec {frame : Frame} {spec : CommandSpec} (h : frame.spec = some spec) :
    Meets allowed frame.needSpec fun found => found = spec :=
  Meets.orFail (fun found hfound => Option.some.inj (hfound.symm.trans h)) (by simp [h])

theorem Meets.changeSpec {frame : Frame} {spec : CommandSpec} (h : frame.spec = some spec)
    (change : CommandSpec → CommandSpec) :
    Meets allowed (frame.changeSpec change) fun next =>
      next = { frame with spec := some (change spec) } :=
  (Meets.needSpec h).bind fun _ hfound => Meets.pure (hfound ▸ rfl)

end CommandFactory.Replay
