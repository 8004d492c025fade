import Reshape.Program.Expr

/-!
# Texts of programs

A program is written as the table of its locals, on one line, and its expression in
parentheses, operator first. Each child of a sequence stands on a line of its own, two
spaces further in than the sequence.
-/

namespace Reshape

def Conversion.text : Conversion → String
  | primitive source target => source.name ++ "->" ++ target.name
  | custom converter => "custom" ++ String.ofList (natText converter.index)

/-- A member of a local or of a shape, by its place. -/
def memberText (holder : String) (member : Nat) : String :=
  holder ++ "." ++ String.ofList (natText member)

mutual

/-- The text of an expression, in a sequence at depth `indent`. -/
def Expr.render (indent : Nat) : Expr → String
  | .argument a => "(arg " ++ a.name ++ ")"
  | .readLocal id => "(read " ++ id.text ++ ")"
  | .writeLocal id value => "(write " ++ id.text ++ " " ++ value.render indent ++ ")"
  | .declareLocal id shape => "(declare " ++ id.text ++ " " ++ shape.text ++ ")"
  | .newInstance shape => "(new " ++ shape.text ++ ")"
  | .box value => "(box " ++ value.render indent ++ ")"
  | .unbox value => "(unbox " ++ value.render indent ++ ")"
  | .returns value => "(return " ++ value.render indent ++ ")"
  | .sequence children => "(seq" ++ Expr.renderLines (indent + 1) children ++ ")"
  | .invoke source target value destination =>
    "(invoke " ++ source.text ++ "->" ++ target.text ++ " " ++ value.render indent ++ " " ++
      destination.render indent ++ ")"
  | .null => "null"
  | .readMember object shape member =>
    "(member " ++ memberText shape.text member ++ " " ++ object.render indent ++ ")"
  | .writeMember id member value =>
    "(set " ++ memberText id.text member ++ " " ++ value.render indent ++ ")"
  | .coalesce value fallback =>
    "(coalesce " ++ value.render indent ++ " " ++ fallback.render indent ++ ")"
  | .ifNotNull test body =>
    "(if-not-null " ++ test.render indent ++ " " ++ body.render indent ++ ")"
  | .convert conversion value =>
    "(convert " ++ conversion.text ++ " " ++ value.render indent ++ ")"

/-- The texts of expressions, each on a new line at depth `indent`. -/
def Expr.renderLines (indent : Nat) : List Expr → String
  | [] => ""
  | e :: es =>
    "\n" ++ String.ofList (List.replicate (indent * 2) ' ') ++ e.render indent ++
      Expr.renderLines indent es

end

/-- The text of an expression. -/
def Expr.text (e : Expr) : String := e.render 0

namespace Program

/-- The locals from the `first` on, with their shapes. -/
def localTexts : Nat → List ShapeId → List String
  | _, [] => []
  | first, shape :: shapes =>
    ((⟨first⟩ : LocalId).text ++ ": " ++ shape.text) :: localTexts (first + 1) shapes

/-- The text of a program. -/
def text (program : Program) : String :=
  let table := String.intercalate ", " (localTexts 0 program.locals)
  "locals:" ++ (if program.locals.isEmpty then "" else " " ++ table) ++ "\n" ++ program.body.text

end Program

end Reshape
