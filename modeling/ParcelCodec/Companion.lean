import ParcelCodec.Procedure

/-!
# Companions

A companion is the class that reads and writes the instances of one data class.  Besides its two
procedures it holds the adapters that they use and the codecs that they share.
-/

namespace ParcelCodec

/-- What the constructor of an adapter is given. -/
inductive DependencyArg where
  | adapter (adapter : AdapterRef)
  /-- A shared codec. -/
  | codec (name : String)
  /-- A class token. -/
  | token (type : JavaType)
  deriving Repr

/-- A field that holds an adapter. -/
structure AdapterField where
  name : String
  /-- The qualified name of the adapter. -/
  adapter : String
  /-- The type arguments of the adapter. -/
  args : List JavaType
  deps : List DependencyArg
  deriving Repr

/-- A shared codec. -/
structure CodecDecl where
  name : String
  type : JavaType
  read : Procedure
  write : Procedure
  deriving Repr

/-- A companion. -/
structure Companion where
  package : String
  name : String
  /-- The class whose instances it reads and writes. -/
  type : JavaType
  /-- The adapters, each after those that it is given. -/
  adapters : List AdapterField
  codecs : List CodecDecl
  read : Procedure
  write : Procedure
  requiresClassLoader : Bool
  /-- The class has a single instance. -/
  singleton : Bool
  deriving Repr

namespace Companion

def qualifiedName (c : Companion) : String := qualified c.package c.name

/-- The qualified name of its class. -/
def className (c : Companion) : String := c.type.name?.getD ""

/-- The shared codec of a name. -/
def codec? (c : Companion) (name : String) : Option CodecDecl :=
  c.codecs.find? (·.name == name)

/-- The adapter field of a name. -/
def adapter? (c : Companion) (name : String) : Option AdapterField :=
  c.adapters.find? (·.name == name)

end Companion

end ParcelCodec
