import ParcelCodec.Command.Disk
import ParcelCodec.Companion.Json
import ParcelCodec.Main
import ParcelCodec.Proofs.Adapter.Handled
import ParcelCodec.Proofs.Adapter.Identifiers
import ParcelCodec.Proofs.Catalog.Subtypes
import ParcelCodec.Proofs.Codec.Bench
import ParcelCodec.Proofs.Companion.Interleaving
import ParcelCodec.Proofs.Compilation.Amplification
import ParcelCodec.Proofs.Compilation.BareArrays
import ParcelCodec.Proofs.Compilation.Delimited
import ParcelCodec.Proofs.Compilation.Ending
import ParcelCodec.Proofs.Compilation.Locals
import ParcelCodec.Proofs.Compilation.Order
import ParcelCodec.Proofs.Compilation.Reports
import ParcelCodec.Proofs.Compilation.SharedCodecs
import ParcelCodec.Proofs.Compilation.Soundness
import ParcelCodec.Proofs.Compilation.StaticFields
import ParcelCodec.Proofs.DataClass.Arrangement
import ParcelCodec.Proofs.DataClass.Superclasses
import ParcelCodec.Proofs.Java.ArrayCreation
import ParcelCodec.Proofs.Java.Positions
import ParcelCodec.Proofs.Java.Printing
import ParcelCodec.Proofs.Java.Spacing
import ParcelCodec.Proofs.NameScope.Allocation
import ParcelCodec.Proofs.Resolution.Circles
import ParcelCodec.Proofs.Resolution.Runs
import ParcelCodec.Proofs.Resolution.WellFormed
import ParcelCodec.Proofs.Value.Integers
import ParcelCodec.Proofs.Wire.Alignment
import ParcelCodec.Proofs.Wire.Failure
import ParcelCodec.Proofs.Wire.Rewriting
