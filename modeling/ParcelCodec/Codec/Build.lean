import ParcelCodec.Codec.Rule

/-!
# Building codecs

The codec of a type follows the rule that the type falls under, and the codecs of its parts follow
theirs.  The parts of an array or a container are smaller types, but an adapter may depend on
adapters for any types whatever, so the search keeps the types above it and refuses to build one
of them again.

A chain of adapters whose types keep growing has no end and never repeats.  The search therefore
goes only to a depth, which is enough for every type without adapters and has something to spare
for chains that are longer than the registry.  Running into it is a failure of its own.
-/

namespace ParcelCodec

/-- What keeps a codec from being built. -/
inductive Obstacle where
  /-- A type has no codec. -/
  | unresolved (u : Unresolved)
  /-- The dependencies of adapters go too deep. -/
  | unbounded (ty : JavaType)
  deriving DecidableEq

/-- An obstacle in words. -/
def Obstacle.toUnresolved : Obstacle → Unresolved
  | .unresolved u => u
  | .unbounded ty => ⟨.fieldTypeIsRecursive, "Adapter dependencies of " ++ ty.display ++ " have no end"⟩

namespace Codebook

def refersBack (ty : JavaType) : Unresolved :=
  ⟨.fieldTypeIsRecursive, "Adapter dependencies of " ++ ty.display ++ " refer back to it"⟩

/-- What an adapter is given, where `part` yields the codecs that it depends on. -/
def dependencies [Monad m] (part : JavaType → m Codec) (b : Bindings) :
    List DependencyPattern → m (List Dependency)
  | [] => pure []
  | .adapter p :: rest => do
    let c ← part (p.substitute b)
    return .codec c :: (← dependencies part b rest)
  | .token p :: rest => do return .token (p.substitute b).erasure :: (← dependencies part b rest)

/-- The use of an adapter that was found for a type. -/
def useOf (found : AdapterMatch) : AdapterUse where
  adapter := found.entry.adapter
  args := found.args
  ident := "_".intercalate (found.args.map (·.constantName) ++ [found.entry.ident])
  viaInstance := found.entry.usesInstance
  nullSafe := found.entry.nullSafe

/-- The codec of a type under a rule, where `part` yields the codecs of other types. -/
def compose [Monad m] (part : JavaType → m Codec) (ty : JavaType) : Rule → m Codec
  | .leaf l => return .leaf ty l
  | .array component => return .array ty (← part component)
  | .sequence kind box element => return .sequence ty kind box (← part element)
  | .map box key value => return .map ty box (← part key) (← part value)
  | .sparseArray element => return .sparseArray ty (← part element)
  | .adapter found =>
    return .adapter ty (useOf found) (← dependencies part found.bindings found.entry.deps)

/-- The codec of a type below others, down to a depth.  The types above stand with their weights,
so that types of different sizes are told apart without going through them. -/
def buildBelow (b : Codebook) : (depth : Nat) → (above : List (Nat × JavaType)) → JavaType →
    Except Obstacle Codec
  | 0, _, ty => .error (.unbounded ty)
  | depth + 1, above, ty =>
    if above.contains ty.weighed then .error (.unresolved (refersBack ty))
    else
      match b.classify ty with
      | .error u => .error (.unresolved u)
      | .ok rule => compose (buildBelow b depth (ty.weighed :: above)) ty rule

/-- How deep the codec of a type may go. -/
def depthFor (b : Codebook) (ty : JavaType) : Nat :=
  ty.weight + b.registry.entries.length + b.spareDepth + 1

/-- The codec of a type. -/
def build (b : Codebook) (ty : JavaType) : Except Obstacle Codec :=
  b.buildBelow (b.depthFor ty) [] ty

end Codebook

end ParcelCodec
