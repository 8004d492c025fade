import Reshape.Routine.Eval

/-!
# Running collection mappers

`CollectionMapper.run` makes a collection out of the elements of the source, or out of the
source alone if it is no collection. Null elements stay null, and the order is kept.

Arrays and lists are made once all elements have been converted. A container of another kind
is supplied, or made first, and gets one element after the other, so that a failure leaves the
elements before it there. The elements are those that the source has when it is read, which
makes no difference unless the destination is the source.
-/

namespace Reshape

namespace CollectionMapper

/-- What an element becomes. -/
def mapElement (mapper : CollectionMapper) (invoke : Invoke) (frame : Frame) (element : Value) :
    RunM Value := do
  if element.isNull then return .null
  else
    match mapper.path with
    | .verbatim => return element
    | .linked link =>
      let routine ← Session.resolve frame.linkage link
      let mapped ← invoke routine element .null frame.state
      return if mapper.inlineElements then mapped.unboxed else mapped
    | .dynamic target =>
      match (← get).heap.shape? element with
      | none => return .null
      | some shape =>
        let routine ← Session.resolveDynamic frame.linkage shape (target.getD shape)
        let mapped ← invoke routine element .null frame.state
        return if mapper.inlineElements then mapped.unboxed else mapped

/-- What elements become, in order. -/
def mapElements (mapper : CollectionMapper) (invoke : Invoke) (frame : Frame)
    (elements : List Value) : RunM (List Value) :=
  elements.mapM (mapper.mapElement invoke frame)

/-- Append what an element becomes. -/
def appendElement (mapper : CollectionMapper) (invoke : Invoke) (frame : Frame) (a : Address)
    (element : Value) : RunM Unit := do
  let mapped ← mapper.mapElement invoke frame element
  modify fun s => { s with heap := s.heap.push a mapped }

/-- Append what elements become, one after the other. -/
def appendElements (mapper : CollectionMapper) (invoke : Invoke) (frame : Frame) (a : Address)
    (elements : List Value) : RunM Unit :=
  elements.forM (mapper.appendElement invoke frame a)

/-- The elements of the source, or the source alone. -/
def sourceElements (source : Value) : RunM (List Value) := do
  return ((← get).heap.elements? source).getD [source]

/-- The address of a sequence of the shape. -/
def sequenceAt? (heap : Heap) (shape : ShapeId) : Value → Option Address
  | .ref a =>
    match heap.get? a with
    | some (.seq found _) => if found = shape then some a else none
    | _ => none
  | _ => none

/-- A new container, if one can be made. -/
def newContainer? (mapper : CollectionMapper) (invoke : Invoke) (frame : Frame) :
    RunM (Option Address) := do
  match mapper.construct with
  | none => return none
  | some program =>
    let made ← program.run invoke { frame with source := .null, destination := .null }
    match made, (← get).heap.instance? made with
    | .ref a, some (.seq _ _) => return some a
    | _, _ => return none

/-- The supplied container, or else a new one. -/
def container? (mapper : CollectionMapper) (invoke : Invoke) (frame : Frame) :
    RunM (Option Address) := do
  match sequenceAt? (← get).heap mapper.target frame.destination with
  | some a => return some a
  | none => mapper.newContainer? invoke frame

/-- The collection made of the source. -/
def run (mapper : CollectionMapper) (invoke : Invoke) (frame : Frame) : RunM Value := do
  if frame.source.isNull then return .null
  else
    match mapper.kind with
    | .array | .typedList | .untypedList =>
      let items ← mapper.mapElements invoke frame (← sourceElements frame.source)
      RunM.onHeap (Heap.alloc (.seq mapper.target items.toArray))
    | .genericInsertable =>
      match ← mapper.container? invoke frame with
      | none => return .null
      | some a =>
        mapper.appendElements invoke frame a (← sourceElements frame.source)
        return .ref a

end CollectionMapper

end Reshape
