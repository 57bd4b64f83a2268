import ParcelCodec.Companion
import ParcelCodec.DataClass.Descriptor
import ParcelCodec.NameScope

/-!
# The static declarations of a companion

Before any procedure is written, the companion's fields are settled: one for each adapter that
needs one, and one for each shared codec.  A codec is shared if it is composite and a property is
encoded by it, or if an adapter is given it.  Both draw their names from one scope of constants.

Adapters come first, in an order in which each follows what it depends on; so whoever uses an
adapter finds its field declared.
-/

namespace ParcelCodec

open DataClass (Descriptor)

/-- A codec that a companion declares. -/
structure SharedCodec where
  name : String
  codec : Codec

/-- The static declarations of a companion. -/
structure Statics where
  constants : NameScope
  adapters : List AdapterField
  codecs : List SharedCodec

namespace Statics

/-- Nothing is declared. -/
def empty : Statics := ⟨.constants, [], []⟩

/-! ## §1. What is declared. -/

/-- The name of the shared codec for a type. -/
def codec? (s : Statics) (ty : JavaType) : Option String :=
  (s.codecs.find? (·.codec.type == ty)).map (·.name)

/-- The field of an adapter. -/
def adapter? (s : Statics) (use : AdapterUse) : Option AdapterField :=
  s.adapters.find? fun f => f.adapter == use.adapter && f.args == use.args

/-- How to reach an adapter. -/
def refTo (s : Statics) (use : AdapterUse) : AdapterRef :=
  if use.viaInstance then .ownInstance use.adapter
  else .field (((s.adapter? use).map (·.name)).getD use.ident)

/-- How to reach the shared codec for a type. -/
def codecName (s : Statics) (ty : JavaType) : String :=
  (s.codec? ty).getD ty.constantName

/-- What the constructor of an adapter is given for a dependency. -/
def argFor (s : Statics) : Dependency → DependencyArg
  | .token ty => .token ty
  | .codec (.adapter _ use _) => .adapter (s.refTo use)
  | .codec c => .codec (s.codecName c.type)

/-! ## §2. Declaring. -/

/-- Declares a shared codec, unless there is one for its type. -/
def share (s : Statics) (c : Codec) : Statics :=
  if (s.codec? c.type).isSome then s
  else
    let (name, constants) := s.constants.allocate c.type.constantName
    ⟨constants, s.adapters, s.codecs ++ [⟨name, c⟩]⟩

/-- Declares the shared codec that an adapter is given for a dependency.  An adapter is given
other adapters as they are. -/
def shareDependency (s : Statics) : Dependency → Statics
  | .token _ => s
  | .codec (.adapter _ _ _) => s
  | .codec c => s.share c

/-- Declares the field of an adapter after the codecs that the adapter is given. -/
def addAdapter (s : Statics) (it : AdapterInstance) : Statics :=
  if it.use.viaInstance || (s.adapter? it.use).isSome then s
  else
    -- The codecs draw their names before the field draws its own.
    let s := it.deps.foldl shareDependency s
    let (name, constants) := s.constants.allocate it.use.ident
    ⟨constants, s.adapters ++ [⟨name, it.use.adapter, it.use.args, it.deps.map s.argFor⟩],
      s.codecs⟩

/-- The static declarations of the companion of a data class. -/
def ofDescriptor (d : Descriptor) : Statics :=
  let adapters := d.requiredAdapters.foldl addAdapter empty
  (d.properties.map (·.codec)).foldl (fun s c => if c.isComposite then s.share c else s) adapters

end Statics

end ParcelCodec
