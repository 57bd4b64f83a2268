import ParcelCodec.Codec.Bench
import ParcelCodec.Proofs.Codec.Building

/-!
# What a bench was used for makes no difference

A bench remembers more than a shelf: the finished adapters, and the types in progress.  Neither
makes a difference.  An adapter is finished right before the codec of the type that it handles, and
name and type arguments say which type that is; so where a codec is missing, its adapter is missing,
too.  And a type is in progress only while its codec is being built, however that ends.

So building on a bench and building on the shelf of its finished codecs go step by step together,
and a shelf makes no difference.

Main statements: `follows_buildWithin`, `gives_build` and `build_on_used`.
-/

namespace ParcelCodec

namespace Bench

open Codebook (Makes)

variable {b : Codebook} {above : List (Nat × JavaType)} {α β : Type}

/-! ## §1. Benches between two steps. -/

/-- The finished codecs of a bench. -/
def shelf (s : Bench) : Shelf := ⟨s.codecs⟩

/-- A bench is ready for a build below some types: these are the ones in progress, every finished
codec is what the codebook makes of its type, and every type whose adapter is finished is finished
itself. -/
structure Ready (b : Codebook) (above : List (Nat × JavaType)) (s : Bench) : Prop where
  inProgress : s.inProgress = above
  sound : Shelf.Sound b s.shelf
  finished : ∀ {ty found}, b.classify ty = .ok (.adapter found) →
    (s.adapter? found.key).isSome → (s.codec? ty).isSome

/-- An empty bench is ready for a first build. -/
theorem ready_empty : Ready b [] empty := ⟨rfl, Shelf.sound_empty, fun _ h => nomatch h⟩

namespace Ready

variable {s : Bench} {ty : JavaType}

/-- A build that starts puts its type above those in progress. -/
theorem enter (h : Ready b above s) : Ready b (ty.weighed :: above) (s.enter ty) :=
  ⟨congrArg (ty.weighed :: ·) h.inProgress, h.sound, h.finished⟩

/-- A build that ends takes its type away again. -/
theorem leave {w : Nat × JavaType} (h : Ready b (w :: above) s) : Ready b above s.leave :=
  ⟨congrArg List.tail h.inProgress, h.sound, h.finished⟩

/-- Finished codecs stay finished. -/
theorem isSome_put {ty' : JavaType} (c : Codec) (h : ty' = ty ∨ (s.codec? ty').isSome) :
    ((s.put ty c).codec? ty').isSome := by
  unfold codec? put
  rw [List.lookup_cons]
  split
  · rfl
  · next other =>
    rcases h with rfl | h
    · rw [beq_self_eq_true] at other
      cases other
    · exact h

/-- A codec that was made of its type can be kept. -/
theorem put (h : Ready b above s) {c : Codec} (made : Makes b ty c) :
    Ready b above (s.put ty c) where
  inProgress := h.inProgress
  sound := Shelf.sound_put h.sound made
  finished classified there := isSome_put c (.inr (h.finished classified there))

/-- An adapter is put on a bench together with the codec of the one type that it handles. -/
theorem putAdapter (registered : b.registry.Registered) (h : Ready b above s)
    {found : AdapterMatch} (classified : b.classify ty = .ok (.adapter found))
    (it : AdapterInstance) {c : Codec} (made : Makes b ty c) :
    Ready b above ((s.putAdapter found.key it).put ty c) where
  inProgress := h.inProgress
  sound := Shelf.sound_put h.sound made
  finished {ty' found'} classified' there := by
    refine isSome_put c ?_
    change (((found.key, it) :: s.adapters).lookup found'.key).isSome = true at there
    rw [List.lookup_cons] at there
    split at there
    · next same =>
      obtain ⟨name, args⟩ := Prod.mk.inj (eq_of_beq same)
      obtain ⟨_, handles⟩ := Codebook.exists_handlerAt?_of_classify classified
      obtain ⟨_, handles'⟩ := Codebook.exists_handlerAt?_of_classify classified'
      exact .inl (registered.eq_of_key handles' handles name args)
    · exact .inr (h.finished classified' there)

end Ready

/-! ## §2. Steps that go together. -/

/-- On every bench that is ready, a step answers what another one answers on the shelf of the
finished codecs; the same codecs are finished then, and the bench is ready again. -/
def Follows (b : Codebook) (above : List (Nat × JavaType)) (x : Step Bench Obstacle α)
    (y : Step Shelf Obstacle α) : Prop :=
  ∀ s, Ready b above s → ∃ r s', x s = (r, s') ∧ y s.shelf = (r, s'.shelf) ∧ Ready b above s'

namespace Follows

/-- Returning follows itself. -/
theorem pure (a : α) : Follows b above (Pure.pure a) (Pure.pure a) :=
  fun s ready => ⟨.ok a, s, rfl, rfl, ready⟩

/-- Steps that go together go together in a row. -/
theorem bind {x : Step Bench Obstacle α} {y : Step Shelf Obstacle α}
    {f : α → Step Bench Obstacle β} {g : α → Step Shelf Obstacle β} (h : Follows b above x y)
    (rest : ∀ a, Follows b above (f a) (g a)) : Follows b above (x >>= f) (y >>= g) := by
  intro s ready
  obtain ⟨e | a, between, hx, hy, ready⟩ := h s ready
  · exact ⟨.error e, between, Step.bind_error hx, Step.bind_error hy, ready⟩
  · rw [Step.bind_ok hx, Step.bind_ok hy]
    exact rest a between ready

/-- So do their images. -/
theorem map {x : Step Bench Obstacle α} {y : Step Shelf Obstacle α} (f : α → β)
    (h : Follows b above x y) : Follows b above (f <$> x) (f <$> y) := by
  rw [map_eq_pure_bind, map_eq_pure_bind]
  exact h.bind fun a => pure (f a)

/-- Builds that go together part by part go together over several types. -/
theorem mapM {build : JavaType → Step Bench Obstacle Codec}
    {build' : JavaType → Step Shelf Obstacle Codec}
    (each : ∀ part, Follows b above (build part) (build' part)) :
    ∀ tys : List JavaType, Follows b above (tys.mapM build) (tys.mapM build')
  | [] => pure []
  | ty :: rest => by
    rw [List.mapM_cons, List.mapM_cons]
    exact (each ty).bind fun c => (mapM each rest).bind fun cs => pure (c :: cs)

end Follows

/-- An adapter that is missing is given what it depends on and put on the bench. -/
theorem adapter_of_missing {build : JavaType → Step Bench Obstacle Codec} {found : AdapterMatch}
    {s : Bench} (missing : s.adapter? found.key = none) :
    adapter build found s
      = match Codebook.dependencies build found.bindings found.entry.deps s with
        | (.ok deps, s') => (.ok ⟨Codebook.useOf found, deps⟩,
            s'.putAdapter found.key ⟨Codebook.useOf found, deps⟩)
        | (.error e, s') => (.error e, s') := by
  unfold adapter
  rw [Step.get_bind, missing]
  rcases run : Codebook.dependencies build found.bindings found.entry.deps s with ⟨e | deps, s'⟩
  · exact Step.bind_error run
  · exact Step.bind_ok run

/-- What is composed of parts that are built together is composed together.  The codec that is
composed is still to be put on the bench, where its adapter may be already. -/
theorem exists_compose (registered : b.registry.Registered)
    {build : JavaType → Step Bench Obstacle Codec} {build' : JavaType → Step Shelf Obstacle Codec}
    (each : ∀ part, Follows b above (build part) (build' part)) (yields : Shelf.Yields b build')
    {ty : JavaType} {rule : Rule} (classified : b.classify ty = .ok rule) {s : Bench}
    (ready : Ready b above s) (missing : s.codec? ty = none) :
    ∃ r s', compose build ty rule s = (r, s')
      ∧ Codebook.compose build' ty rule s.shelf = (r, s'.shelf)
      ∧ match r with
        | .ok c => Ready b above (s'.put ty c)
        | .error _ => Ready b above s' := by
  have parts : Follows b above (Codebook.compose build ty rule)
      (Codebook.compose build' ty rule) := by
    rw [Codebook.compose_eq, Codebook.compose_eq]
    exact (Follows.mapM each rule.parts).map _
  cases rule with
  | adapter found =>
    -- The bench asks for the adapter before its dependencies are built. It is missing there: an
    -- adapter is finished along with its type.
    have new : s.adapter? found.key = none := by
      rw [← Option.not_isSome_iff_eq_none]
      intro there
      have finished := ready.finished classified there
      rw [missing] at finished
      cases finished
    have deps : Follows b above (Codebook.dependencies build found.bindings found.entry.deps)
        (Codebook.dependencies build' found.bindings found.entry.deps) := by
      rw [Codebook.dependencies_eq, Codebook.dependencies_eq]
      exact (Follows.mapM each _).map _
    have given : adapter build found s = _ := adapter_of_missing new
    obtain ⟨e | ds, s', run, run', ready'⟩ := deps s ready
    · rw [run] at given
      exact ⟨_, _, Step.bind_error given, Step.bind_error run', ready'⟩
    · rw [run] at given
      have composed : Codebook.compose build' ty (.adapter found) s.shelf
          = (.ok (.adapter ty (Codebook.useOf found) ds), s'.shelf) := Step.bind_ok run'
      have made := (Shelf.makes_compose yields classified ready.sound composed).1
      exact ⟨_, _, Step.bind_ok given, composed, ready'.putAdapter registered classified _ made⟩
  | _ =>
    -- Every other rule composes its parts without a look at the bench.
    obtain ⟨e | c, s', built, built', ready'⟩ := parts s ready
    · exact ⟨_, s', built, built', ready'⟩
    · have made := (Shelf.makes_compose yields classified ready.sound built').1
      exact ⟨_, s', built, built', ready'.put made⟩

/-- A build on a bench and a build on the shelf of its finished codecs go together. -/
theorem follows_buildWithin (registered : b.registry.Registered) : ∀ (depth : Nat)
    (above : List (Nat × JavaType)) (ty : JavaType),
    Follows b above (buildWithin b depth ty) (Shelf.buildBelow b depth above ty)
  | 0, _, ty => fun s ready => ⟨.error (.unbounded ty), s, rfl, rfl, ready⟩
  | depth + 1, above, ty => by
    intro s ready
    unfold buildWithin Shelf.buildBelow
    rw [Step.get_bind, Step.get_bind]
    have same : s.shelf.get? ty = s.codec? ty := rfl
    rw [same]
    rcases missing : s.codec? ty with _ | c
    · simp only
      rw [Step.get_bind, ready.inProgress]
      by_cases again : above.contains ty.weighed = true
      · rw [if_pos again, if_pos again]
        exact ⟨_, s, rfl, rfl, ready⟩
      · -- The type is not in progress, so its parts are built below it on both sides.
        rw [if_neg again, if_neg again]
        rcases classified : b.classify ty with u | rule
        · exact ⟨.error (.unresolved u), s, rfl, rfl, ready⟩
        · simp only
          obtain ⟨r, s', run, run', ready'⟩ := exists_compose registered
            (follows_buildWithin registered depth (ty.weighed :: above))
            (Shelf.yields_buildBelow depth _) classified ready.enter missing
          have during : during ty (compose (buildWithin b depth) ty rule) s = (r, s'.leave) := by
            unfold during
            rw [run]
          rcases r with e | c
          · exact ⟨.error e, s'.leave, Step.bind_error during, Step.bind_error run', ready'.leave⟩
          · exact ⟨.ok c, (s'.put ty c).leave, Step.bind_ok during, Step.bind_ok run',
              ready'.leave⟩
    · exact ⟨.ok c, s, rfl, rfl, ready⟩

/-- On every bench that is ready, a search that comes to an end gives the codec of its type. -/
theorem gives_build (registered : b.registry.Registered) {ty : JavaType}
    (ended : Finished (b.build ty)) : Step.Gives (Ready b []) (build b ty) (b.build ty) := by
  intro s ready
  obtain ⟨r, s', run, onShelf, ready'⟩ :=
    follows_buildWithin registered (b.depthFor ty) [] ty s ready
  obtain ⟨_, shared, -⟩ := Shelf.shares_build ended s.shelf ready.sound
  -- The shelf of the bench gives the answer that all sound shelves give.
  have same : r = b.build ty := congrArg Prod.fst (onShelf.symm.trans shared)
  exact ⟨s', same ▸ run, ready'⟩

/-- What is built on a bench that is ready is what the codebook makes. -/
theorem yields_build (registered : b.registry.Registered) : b.Yields (Ready b []) (build b) := by
  intro ty s c s' ready built
  obtain ⟨r, s'', run, onShelf, ready'⟩ :=
    follows_buildWithin registered (b.depthFor ty) [] ty s ready
  obtain ⟨rfl, rfl⟩ := Prod.mk.inj (run.symm.trans built)
  exact ⟨(Shelf.yields_buildBelow _ _ ty ready.sound onShelf).1, ready'⟩

/-! ## §3. Benches that have been used. -/

/-- A bench that has been used: codecs have been built on it one after another, each to some depth,
and whatever came of it. -/
inductive Used (b : Codebook) : Bench → Prop
  | empty : Used b empty
  | build {s : Bench} (used : Used b s) (depth : Nat) (ty : JavaType) :
    Used b (buildWithin b depth ty s).2

/-- A bench that has been used is as good as an empty one. -/
theorem Used.ready (registered : b.registry.Registered) {s : Bench} (used : Used b s) :
    Ready b [] s := by
  induction used with
  | empty => exact ready_empty
  | build _ depth ty ih =>
    obtain ⟨r, s', run, -, ready⟩ := follows_buildWithin registered depth [] ty _ ih
    rw [run]
    exact ready

/-- A build on a bench that is ready answers what the build on its shelf answers. -/
theorem answer_eq (registered : b.registry.Registered) {s : Bench} (ready : Ready b [] s)
    (depth : Nat) (ty : JavaType) :
    (buildWithin b depth ty s).1 = (Shelf.buildBelow b depth [] ty s.shelf).1 := by
  obtain ⟨r, s', run, run', -⟩ := follows_buildWithin registered depth [] ty s ready
  rw [run, run']

/-- What a bench was used for makes no difference: no type is left in progress, and the build of a
codec that comes to an end on a new bench comes to an end on the used one, with the same codec or
the same obstacle however deep it may go. -/
theorem build_on_used (registered : b.registry.Registered) {s : Bench} (used : Used b s) :
    s.inProgress = []
      ∧ ∀ ty depth, Finished (buildWithin b depth ty empty).1 →
        (∃ depth', (buildWithin b depth' ty s).1 = (buildWithin b depth ty empty).1)
        ∧ ∀ depth', Finished (buildWithin b depth' ty s).1 →
          (buildWithin b depth' ty s).1 = (buildWithin b depth ty empty).1 := by
  have ready := used.ready registered
  refine ⟨ready.inProgress, fun ty depth ended => ?_⟩
  rw [answer_eq registered ready_empty] at ended ⊢
  constructor
  · obtain ⟨depth', same⟩ := Shelf.exists_build Shelf.sound_empty ready.sound ended
    exact ⟨depth', (answer_eq registered ready depth' ty).trans same⟩
  · intro depth' ended'
    rw [answer_eq registered ready] at ended' ⊢
    exact Shelf.buildBelow_agree Shelf.sound_empty ready.sound ended ended'

open Codebook (generic leadingTo ofModel)

/-- The registry of a model holds the entries that registering puts there. -/
theorem registered_ofModel (m : Model) : (ofModel m).registry.Registered :=
  Registry.registered_build ⟨m, Options.default.companionSuffix⟩

/-- Pings and pongs, whose adapters depend on each other. -/
def crossing : Model where
  types := [generic "Ping" ["T"], generic "Pong" ["T"]]
  adapters := [leadingTo "Pong<java.util.List<T>>" "PingAdapter" "Ping<T>" ["T"],
    leadingTo "Ping<T>" "PongAdapter" "Pong<java.util.List<T>>" ["T"]]

/-- Pongs of lists are refused by themselves. -/
def pong : JavaType :=
  .declared "app.Pong" [.declared "java.util.List" [.named "java.lang.String"]]

/-- The bench on which a ping has been refused. -/
def afterPing : Bench :=
  (buildWithin (ofModel crossing) 4 (.declared "app.Ping" [.named "java.lang.String"]) empty).2

/-- A ping that was refused because of its pong leaves the pong to be refused because of its
ping. -/
theorem build_on_used_crossing :
    (ofModel crossing).registry.Registered ∧ Used (ofModel crossing) afterPing
      ∧ (buildWithin (ofModel crossing) 4 pong empty).1
        = .error (.unresolved (Codebook.refersBack pong))
      ∧ afterPing.inProgress = []
      ∧ ∃ depth', (buildWithin (ofModel crossing) depth' pong afterPing).1
        = .error (.unresolved (Codebook.refersBack pong)) := by
  have registered : (ofModel crossing).registry.Registered := registered_ofModel crossing
  have used : Used (ofModel crossing) afterPing := Used.empty.build 4 _
  have refused : (buildWithin (ofModel crossing) 4 pong empty).1
      = .error (.unresolved (Codebook.refersBack pong)) := by decide +kernel
  obtain ⟨idle, again⟩ := build_on_used registered used
  obtain ⟨depth', same⟩ := (again pong 4 (refused ▸ finished_unresolved _)).1
  exact ⟨registered, used, refused, idle, depth', same.trans refused⟩

end Bench

end ParcelCodec
