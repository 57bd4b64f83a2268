import ParcelCodec.Java.Type
import ParcelCodec.Value.Display
import ParcelCodec.Wire.Op

/-!
# What can go wrong in a run

A run reads bytes or values that may be anything, so it can fail for reasons that lie in its
input: bytes that do not decode, values that do not encode, classes and adapters that nobody
knows.  A procedure that does not make sense fails for reasons that lie in itself.

A run that calls deeper than its budget is stopped; this is not a failure of either kind.
-/

namespace ParcelCodec

/-- Why bytes do not decode. -/
inductive DecodeFault where
  /-- An operation could not read its slot at an offset. -/
  | unreadable (op : Wire.Op) (offset : Nat)
  /-- Something that is no count stands where a count should. -/
  | invalidLength (found : Value)
  /-- An array is longer than the bytes that are left for it. -/
  | arrayTooLong (length remaining : Nat)
  /-- What an adapter says. -/
  | stated (text : String)
  deriving Repr

/-- Why a value does not encode. -/
inductive EncodeFault where
  /-- It is no instance of a class. -/
  | notAnInstance (value : Value)
  /-- A slot for instances cannot hold it. -/
  | notParcelable (value : Value)
  /-- An operation cannot carry it. -/
  | unwritable (value : Value) (op : Wire.Op)
  deriving Repr

/-- Why a procedure does not make sense. -/
inductive ProcedureFault where
  | readWhileWriting
  | writeWhileReading
  | unbound (name : String)
  /-- A value is not of the shape that a statement needs. -/
  | unexpected (wanted : String) (found : Value)
  /-- A procedure that reads ends without a value. -/
  | noValue (companion : String)
  | noAdapterField (companion field : String)
  | noCodec (companion codec : String)
  /-- An adapter asks for a dependency that it is not given. -/
  | noDependency (position : Nat)
  /-- An adapter asks a class token to read or write. -/
  | tokenDependency (position : Nat) (type : JavaType)
  /-- What an adapter says. -/
  | stated (text : String)
  deriving Repr

/-- How a run ends if not with a result. -/
inductive RunError where
  | decode (fault : DecodeFault)
  | encode (fault : EncodeFault)
  /-- A class or a companion that the machine does not know. -/
  | missingCompanion (name : String)
  /-- An adapter that nobody supplied. -/
  | missingAdapter (name : String)
  | procedure (fault : ProcedureFault)
  /-- The run calls deeper than its budget. -/
  | outOfDepth
  deriving Repr

/-- A decoding fault in words. -/
def DecodeFault.message : DecodeFault → String
  | .unreadable op offset => "Failed to read " ++ op.name ++ " at offset " ++ toString offset
  | .invalidLength found => "Invalid length " ++ found.display
  | .arrayTooLong length remaining =>
    "Array length " ++ toString length ++ " exceeds the remaining " ++ toString remaining ++ " bytes"
  | .stated text => text

/-- An encoding fault in words. -/
def EncodeFault.message : EncodeFault → String
  | .notAnInstance v => v.display ++ " is not a data-class instance"
  | .notParcelable v => v.display ++ " is not parcelable"
  | .unwritable v op => v.display ++ " cannot be written as " ++ op.name

/-- A fault of a procedure in words. -/
def ProcedureFault.message : ProcedureFault → String
  | .readWhileWriting => "Read inside a write procedure"
  | .writeWhileReading => "Write inside a read procedure"
  | .unbound name => "Unbound local " ++ name
  | .unexpected wanted found => "Expected " ++ wanted ++ ", found " ++ found.display
  | .noValue companion => "Read procedure of " ++ companion ++ " returned no value"
  | .noAdapterField companion field => companion ++ " has no adapter field " ++ field
  | .noCodec companion codec => companion ++ " has no codec " ++ codec
  | .noDependency position => "Adapter has no dependency #" ++ toString position
  | .tokenDependency position type =>
    "Dependency #" ++ toString position ++ " is the class token " ++ type.display
      ++ ", not an adapter"
  | .stated text => text

/-- The end of a run in words. -/
def RunError.message : RunError → String
  | .decode fault => "Parcel decode error: " ++ fault.message
  | .encode fault => "Parcel encode error: " ++ fault.message
  | .missingCompanion name => "No companion generated for " ++ name
  | .missingAdapter name => "No runtime adapter registered for " ++ name
  | .procedure fault => "Runtime error: " ++ fault.message
  | .outOfDepth => "Runtime error: Procedures call each other too deep"

end ParcelCodec
