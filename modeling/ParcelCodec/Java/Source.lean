import ParcelCodec.Companion
import ParcelCodec.NameScope
import ParcelCodec.Text.Segments

/-!
# Source text

Companions as source text.  A companion becomes a final class with a field for each adapter, a
constant for each shared codec, the platform's `CREATOR`, a method that writes, and a private
constructor; a procedure becomes the body of a method.

Text is built from lines, and a line knows its depth: two blanks for each enclosing block.
-/

namespace ParcelCodec.Java

/-! ## §1. Lines. -/

/-- A line of text inside a number of blocks. -/
structure SourceLine where
  depth : Nat
  text : String
  deriving Repr

/-- The line as it is printed; an empty line has no indentation. -/
def SourceLine.display (l : SourceLine) : String :=
  if l.text.isEmpty then "" else .ofList (List.replicate (2 * l.depth) ' ') ++ l.text

/-- Lines outside every block. -/
def flat (texts : List String) : List SourceLine := texts.map (⟨0, ·⟩)

/-- Lines inside one more block. -/
def inner (lines : List SourceLine) : List SourceLine :=
  lines.map fun l => ⟨l.depth + 1, l.text⟩

/-- A block: its head, what stands inside, and what follows the closing brace. -/
def block (head : String) (body : List SourceLine) (tail : String) : List SourceLine :=
  ⟨0, head ++ " \x7b"⟩ :: inner body ++ [⟨0, "\x7d" ++ tail⟩]

/-- An empty line. -/
def blankLine : List SourceLine := flat [""]

/-! ## §2. Operations. -/

/-- The class of parcels. -/
def parcelClass : String := "android.os.Parcel"

/-- Helpers for operations that a parcel lacks. -/
def helperClass : String := "brine.parcel.Parcels"

/-- Access to fields by reflection. -/
def reflectionClass : String := "brine.parcel.Reflection"

/-- A call of a method of the buffer that is read. -/
def readCall (method : String) (args : String) : String :=
  NameScope.input ++ "." ++ method ++ "(" ++ args ++ ")"

/-- The expression that reads one operation's slot. -/
def readOp (loader : String) : Wire.Op → String
  | .boolean => readCall "readInt" "" ++ " == 1"
  | .byte => readCall "readByte" ""
  | .short => "(short) " ++ readCall "readInt" ""
  | .char => "(char) " ++ readCall "readInt" ""
  | .int => readCall "readInt" ""
  | .long => readCall "readLong" ""
  | .float => readCall "readFloat" ""
  | .double => readCall "readDouble" ""
  | .string => readCall "readString" ""
  | .charSequence =>
    "android.text.TextUtils.CHAR_SEQUENCE_CREATOR.createFromParcel(" ++ NameScope.input ++ ")"
  | .booleanArray => readCall "createBooleanArray" ""
  | .byteArray => readCall "createByteArray" ""
  | .charArray => readCall "createCharArray" ""
  | .shortArray => helperClass ++ ".readShortArray(" ++ NameScope.input ++ ")"
  | .intArray => readCall "createIntArray" ""
  | .longArray => readCall "createLongArray" ""
  | .floatArray => readCall "createFloatArray" ""
  | .doubleArray => readCall "createDoubleArray" ""
  | .bigInteger => "new java.math.BigInteger(" ++ readCall "createByteArray" "" ++ ")"
  | .bigDecimal =>
    "new java.math.BigDecimal(new java.math.BigInteger(" ++ readCall "createByteArray" "" ++ "), "
      ++ readCall "readInt" "" ++ ")"
  | .size => readCall "readSize" ""
  | .sizeF => readCall "readSizeF" ""
  | .sparseBooleanArray => readCall "readSparseBooleanArray" ""
  | .bundle => readCall "readBundle" loader
  | .persistableBundle => readCall "readPersistableBundle" loader
  | .strongBinder => readCall "readStrongBinder" ""
  | .serializable => readCall "readSerializable" ""
  | .parcelable => readCall "readParcelable" loader
  | .value => readCall "readValue" loader

/-- A statement that calls a method of the buffer that is written. -/
def writeCall (method : String) (args : String) : String :=
  NameScope.output ++ "." ++ method ++ "(" ++ args ++ ");"

/-- The statements that write one operation's slot. -/
def writeOp (value : String) : Wire.Op → List String
  | .boolean => [writeCall "writeInt" (value ++ " ? 1 : 0")]
  | .byte => [writeCall "writeByte" value]
  | .short => [writeCall "writeInt" value]
  | .char => [writeCall "writeInt" value]
  | .int => [writeCall "writeInt" value]
  | .long => [writeCall "writeLong" value]
  | .float => [writeCall "writeFloat" value]
  | .double => [writeCall "writeDouble" value]
  | .string => [writeCall "writeString" value]
  | .charSequence =>
    ["android.text.TextUtils.writeToParcel(" ++ value ++ ", " ++ NameScope.output ++ ", "
      ++ NameScope.flags ++ ");"]
  | .booleanArray => [writeCall "writeBooleanArray" value]
  | .byteArray => [writeCall "writeByteArray" value]
  | .charArray => [writeCall "writeCharArray" value]
  | .shortArray =>
    [helperClass ++ ".writeShortArray(" ++ value ++ ", " ++ NameScope.output ++ ");"]
  | .intArray => [writeCall "writeIntArray" value]
  | .longArray => [writeCall "writeLongArray" value]
  | .floatArray => [writeCall "writeFloatArray" value]
  | .doubleArray => [writeCall "writeDoubleArray" value]
  | .bigInteger => [writeCall "writeByteArray" (value ++ ".toByteArray()")]
  | .bigDecimal =>
    [writeCall "writeByteArray" (value ++ ".unscaledValue().toByteArray()"),
     writeCall "writeInt" (value ++ ".scale()")]
  | .size => [writeCall "writeSize" value]
  | .sizeF => [writeCall "writeSizeF" value]
  | .sparseBooleanArray => [writeCall "writeSparseBooleanArray" value]
  | .bundle => [writeCall "writeBundle" value]
  | .persistableBundle => [writeCall "writePersistableBundle" value]
  | .strongBinder => [writeCall "writeStrongBinder" value]
  | .serializable => [writeCall "writeSerializable" value]
  | .parcelable => [writeCall "writeParcelable" (value ++ ", " ++ NameScope.flags)]
  | .value => [writeCall "writeValue" value]

/-! ## §3. Expressions. -/

/-- How an adapter is reached. -/
def adapterSource : AdapterRef → String
  | .field name => name
  | .ownInstance className => className ++ ".INSTANCE"

/-- A type where only a class will do. -/
def boxedSource : JavaType → String
  | .primitive p => p.boxed
  | ty => ty.display

/-- A new array.  An array of a generic type is made of the bare type and cast. -/
def newArraySource (element : JavaType) (length : String) : String :=
  if element.args.isEmpty then "new " ++ element.display ++ "[" ++ length ++ "]"
  else
    "(" ++ element.display ++ "[]) new " ++ element.erasure.display ++ "[" ++ length ++ "]"

/-- A quoted field name. -/
def fieldLiteral (field : String) : String := "\"" ++ field ++ "\""

mutual

/-- An expression. -/
def exprSource : Expr → String
  | .var name => name
  | .null => "null"
  | .int n => toString n.toInt
  | .read op loader => readOp (loader.getD "null") op
  | .size target => exprSource target ++ ".size()"
  | .length target => exprSource target ++ ".length"
  | .index target position => exprSource target ++ "[" ++ exprSource position ++ "]"
  | .keyAt target position => exprSource target ++ ".keyAt(" ++ exprSource position ++ ")"
  | .valueAt target position => exprSource target ++ ".valueAt(" ++ exprSource position ++ ")"
  | .newContainer _ type capacity => "new " ++ type.display ++ "(" ++ capacitySource capacity ++ ")"
  | .newArray element length => newArraySource element (exprSource length)
  | .cast type value => "(" ++ type.display ++ ") " ++ exprSource value
  | .enumValueOf type name => type.display ++ ".valueOf(" ++ exprSource name ++ ")"
  | .enumName value => exprSource value ++ ".name()"
  | .readNested companion =>
    companion ++ ".CREATOR.createFromParcel(" ++ NameScope.input ++ ")"
  | .adapterRead adapter =>
    adapterSource adapter ++ ".readFromParcel(" ++ NameScope.input ++ ")"
  | .codecRead codec => codec ++ ".readFromParcel(" ++ NameScope.input ++ ")"
  | .field target field => exprSource target ++ "." ++ field
  | .getter target method _ => exprSource target ++ "." ++ method ++ "()"
  | .reflect target owner field type =>
    "(" ++ boxedSource type ++ ") " ++ reflectionClass ++ ".get(" ++ owner.erasure.display
      ++ ".class, " ++ fieldLiteral field ++ ", " ++ exprSource target ++ ")"
  | .construct type args =>
    "new " ++ type.display ++ "(" ++ ", ".intercalate (argSources args) ++ ")"
  | .singleton type => type.erasure.display ++ ".INSTANCE"
  | .classLoader type => type.erasure.display ++ ".class.getClassLoader()"

/-- A capacity, if there is one. -/
def capacitySource : Option Expr → String
  | none => ""
  | some e => exprSource e

/-- The arguments of a constructor. -/
def argSources : List (String × Expr) → List String
  | [] => []
  | (_, e) :: rest => exprSource e :: argSources rest

end

/-! ## §4. Statements. -/

/-- A call that writes a value through a companion, an adapter or a shared codec. -/
def writeThrough (receiver value : String) : List SourceLine :=
  flat [receiver ++ ".writeToParcel(" ++ value ++ ", " ++ NameScope.output ++ ", "
    ++ NameScope.flags ++ ");"]

mutual

/-- The lines of a statement. -/
def stmtSource : Stmt → List SourceLine
  | .declare name type init =>
    flat [type.display ++ " " ++ name ++ " = " ++ exprSource init ++ ";"]
  | .assign name value => flat [name ++ " = " ++ exprSource value ++ ";"]
  | .write op value => flat (writeOp (exprSource value) op)
  | .ifPresent body => block ("if (" ++ readCall "readInt" "" ++ " == 0)") (bodySource body) ""
  | .ifNull value thens otherwise =>
    flat ["if (" ++ exprSource value ++ " == null) \x7b"]
      ++ inner (bodySource thens)
      ++ flat ["\x7d else \x7b"]
      ++ inner (bodySource otherwise)
      ++ flat ["\x7d"]
  | .forCount index count body =>
    block ("for (int " ++ index ++ " = 0; " ++ index ++ " < " ++ exprSource count ++ "; " ++ index
      ++ "++)") (bodySource body) ""
  | .forEach var type iterable body =>
    block ("for (" ++ type.display ++ " " ++ var ++ " : " ++ exprSource iterable ++ ")")
      (bodySource body) ""
  | .forEntries key keyType value valueType map body =>
    block ("for (" ++ keyType.display ++ " " ++ key ++ " : " ++ exprSource map ++ ".keySet())")
      (flat [valueType.display ++ " " ++ value ++ " = " ++ exprSource map ++ ".get(" ++ key ++ ");"]
        ++ bodySource body) ""
  | .add target value => flat [target ++ ".add(" ++ exprSource value ++ ");"]
  | .put target key value =>
    flat [target ++ ".put(" ++ exprSource key ++ ", " ++ exprSource value ++ ");"]
  | .store array index value =>
    flat [array ++ "[" ++ exprSource index ++ "] = " ++ exprSource value ++ ";"]
  | .writeNested companion value => writeThrough companion (exprSource value)
  | .adapterWrite adapter value => writeThrough (adapterSource adapter) (exprSource value)
  | .codecWrite codec value => writeThrough codec (exprSource value)
  | .setField target field value =>
    flat [target ++ "." ++ field ++ " = " ++ exprSource value ++ ";"]
  | .callSetter target method _ value =>
    flat [target ++ "." ++ method ++ "(" ++ exprSource value ++ ");"]
  | .reflectSet target owner field value =>
    flat [reflectionClass ++ ".set(" ++ owner.erasure.display ++ ".class, " ++ fieldLiteral field
      ++ ", " ++ target ++ ", " ++ exprSource value ++ ");"]
  | .ret value => flat ["return " ++ exprSource value ++ ";"]

/-- The lines of several statements. -/
def bodySource : List Stmt → List SourceLine
  | [] => []
  | s :: rest => stmtSource s ++ bodySource rest

end

/-! ## §5. Members. -/

/-- What the constructor of an adapter is given. -/
def dependencySource : DependencyArg → String
  | .adapter adapter => adapterSource adapter
  | .codec name => name
  | .token type => type.display ++ ".class"

/-- The field of an adapter. -/
def adapterFieldSource (f : AdapterField) : String :=
  let type := (JavaType.declared f.adapter f.args).display
  "static final " ++ type ++ " " ++ f.name ++ " = new " ++ type ++ "("
    ++ ", ".intercalate (f.deps.map dependencySource) ++ ");"

/-- The parameters of a method that writes. -/
def writeParams (type value : String) : String :=
  "(" ++ type ++ " " ++ value ++ ", " ++ parcelClass ++ " " ++ NameScope.output ++ ", int "
    ++ NameScope.flags ++ ")"

/-- The parameter of a method that reads. -/
def readParams : String := "(" ++ parcelClass ++ " " ++ NameScope.input ++ ")"

/-- A constant that holds an instance of an anonymous class. -/
def anonymousConstant (type name : String) (body : List SourceLine) : List SourceLine :=
  block ("static final " ++ type ++ " " ++ name ++ " = new " ++ type ++ "()") body ";"

/-- The declaration of a shared codec. -/
def codecSource (c : CodecDecl) : List SourceLine :=
  let type := c.type.display
  anonymousConstant (typeAdapterName ++ "<" ++ type ++ ">") c.name <|
    flat ["@Override"]
      ++ block ("public " ++ type ++ " readFromParcel" ++ readParams) (bodySource c.read.body) ""
      ++ blankLine
      ++ flat ["@Override"]
      ++ block ("public void writeToParcel" ++ writeParams type (c.write.value.getD "value"))
          (bodySource c.write.body) ""

/-- The platform's constant for reading instances and creating arrays of them. -/
def creatorSource (c : Companion) : List SourceLine :=
  let type := c.type.display
  anonymousConstant ("android.os.Parcelable.Creator<" ++ type ++ ">") "CREATOR" <|
    flat ["@Override"]
      ++ block ("public " ++ type ++ " createFromParcel" ++ readParams) (bodySource c.read.body) ""
      ++ blankLine
      ++ flat ["@Override"]
      ++ block ("public " ++ type ++ "[] newArray(int size)")
          (flat ["return new " ++ c.type.erasure.display ++ "[size];"]) ""

/-- The lines of a companion. -/
def companionLines (c : Companion) : List SourceLine :=
  let type := c.type.display
  (if c.package.isEmpty then [] else flat ["package " ++ c.package ++ ";", ""])
    ++ block ("final class " ++ c.name)
        (flat (c.adapters.map adapterFieldSource)
          ++ (if c.adapters.isEmpty then [] else blankLine)
          ++ c.codecs.flatMap (fun codec => codecSource codec ++ blankLine)
          ++ creatorSource c
          ++ blankLine
          ++ block ("static void writeToParcel"
                ++ writeParams type (c.write.value.getD "data"))
              (bodySource c.write.body) ""
          ++ blankLine
          ++ block ("private " ++ c.name ++ "()") [] "") ""

/-! ## §6. Files. -/

/-- A source file. -/
structure SourceFile where
  /-- Where it stands below the root of all sources. -/
  path : String
  contents : String
  deriving Repr, DecidableEq

/-- A path with one more segment.  A segment that starts with a slash is a path of its own. -/
def joinPath (path segment : String) : String :=
  match segment.toList with
  | '/' :: _ => segment
  | _ =>
    match path.toList.getLast? with
    | none => segment
    | some '/' => path ++ segment
    | some _ => path ++ "/" ++ segment

/-- The path of a class's source file. -/
def sourcePath (package name : String) : String :=
  let segments := (Text.segments '.' package.toList).map String.ofList
  ((segments.filter (!·.isEmpty)) ++ [name ++ ".java"]).foldl joinPath ""

/-- The source text of a companion. -/
def sourceText (c : Companion) : String :=
  "\n".intercalate ((companionLines c).map SourceLine.display) ++ "\n"

/-- The source file of a companion. -/
def sourceFile (c : Companion) : SourceFile :=
  ⟨sourcePath c.package c.name, sourceText c⟩

end ParcelCodec.Java
