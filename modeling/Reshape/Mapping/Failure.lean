import Reshape.Program.Scope
import Reshape.Shape.Pool
import Reshape.Value.Conversion

/-!
# Failures

What goes wrong while a conversion is compiled (`CompileError`) and while it is run
(`ConversionError`). That no instance can be made, or that nothing is known about a kind of
collection, is no failure : the value of such a conversion is null.
-/

namespace Reshape

/-- What stops a compilation. -/
inductive CompileError where
  | shape (error : ShapeError)
  /-- Neither a built-in conversion nor a converter leads from one shape to the other. -/
  | noConversion (source target : String)
  /-- The program does not declare its locals as it should ; with its text. -/
  | malformed (defect : Defect) (program : String)
  /-- The program uses a converter that the mapping does not have. -/
  | unknownConverter (converter : ConverterId)
  deriving DecidableEq

/-- The text of a failure to compile. -/
def CompileError.message : CompileError → String
  | shape e => e.message
  | noConversion source target => "no conversion from `" ++ source ++ "` to `" ++ target ++ "`"
  | malformed defect program => "malformed routine IR: " ++ defect.message ++ "\n" ++ program
  | unknownConverter converter =>
    "malformed routine IR: unknown converter " ++ String.ofList (natText converter.index)

/-- What stops a routine that runs. -/
inductive ConversionError where
  /-- A routine that was needed did not compile. -/
  | compile (error : CompileError)
  /-- A record of another shape was found. -/
  | shapeMismatch (expected found : ShapeId)
  | primitive (error : PrimitiveError)
  /-- The registry that would have had the routine is gone. -/
  | registryDropped
  /-- A converter failed, with this text. -/
  | custom (text : String)
  deriving DecidableEq

/-- The text of a failure to convert. -/
def ConversionError.message : ConversionError → String
  | compile e => e.message
  | shapeMismatch expected found =>
    "expected a value of shape " ++ expected.text ++ ", found " ++ found.text
  | primitive e => e.message
  | registryDropped => "the routine registry was dropped"
  | custom text => "custom converter failed: " ++ text

end Reshape
