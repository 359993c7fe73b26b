import BackgroundAgents.Lib.Json

/-!
# The size of an event

`event_size.py`: an event that is too large for a frame is cut before it enters the
delivery queue. `truncate_tool_call` empties or shortens the output and then the
largest strings among the arguments, never a file path, and keeps count of the size
as it goes; `truncate_critical_error` shortens the diagnostic of a critical event.

An event is a dictionary with texts for keys. A container among the arguments is named
by its place in them, so the copy that the cuts are made in is a value of its own.
-/

namespace BackgroundAgents.Sandbox.EventSize

open Json (textSize getAt setAt)

/-- A Python text, as its code points. -/
abbrev Text := List Nat

abbrev Event := List (Text × Json)

def asText (s : String) : Text := s.toList.map Char.toNat

def MAX_EVENT_BYTES : Nat := 1000000

def eventSizeBytes (event : Event) : Nat := Json.size Json.spaced (.obj event)

/-! ## `_arg_strings` -/

def PATH_KEYS : List Text := ["path", "filepath", "filename", "file", "notebookpath"].map asText

/-- A string among the arguments that may be cut: its container and key, its name in the
marker, and what it says. -/
structure Candidate where
  place : List Nat
  path : Text
  text : Text

def Candidate.below (i : Nat) (c : Candidate) : Candidate := { c with place := i :: c.place }

/-- `child` of `isinstance(child, str) and child`. -/
def filledText : Json → Option Text
  | .str (c :: text) => some (c :: text)
  | _ => none

section ArgStrings

-- `str.lower`
variable (lower : Text → Text)

def isPathKey (key : Text) : Bool := PATH_KEYS.contains (lower (key.filter (· ≠ '_'.toNat)))

mutual

def argStrings : Json → Text → List Candidate
  | .obj entries, location => entryStrings entries 0 location
  | .arr items, location => itemStrings items 0 location
  | _, _ => []
termination_by structural value => value

/-- The strings among the entries of a dict, the first of which is number `i`. -/
def entryStrings : List (Text × Json) → Nat → Text → List Candidate
  | [], _, _ => []
  | (key, child) :: rest, i, location =>
    let path := location ++ asText "." ++ key
    (match filledText child with
      | some text => if isPathKey lower key then [] else [{ place := [i], path, text }]
      | none => (argStrings child path).map (Candidate.below i)) ++
      entryStrings rest (i + 1) location
termination_by structural entries => entries

/-- The strings among the items of a list, the first of which is number `i`. -/
def itemStrings : List Json → Nat → Text → List Candidate
  | [], _, _ => []
  | child :: rest, i, location =>
    let path := location ++ asText "[" ++ (Nat.toDigits 10 i).map Char.toNat ++ asText "]"
    (match filledText child with
      | some text => [{ place := [i], path, text }]
      | none => (argStrings child path).map (Candidate.below i)) ++
      itemStrings rest (i + 1) location
termination_by structural items => items

end

end ArgStrings

/-! ## `_fit_json_string` -/

def fitSearch (text : Text) (maxBytes : Int) (low high : Nat) : Nat :=
  if low < high then
    let mid := (low + high + 1) / 2
    if (textSize (text.take mid) : Int) ≤ maxBytes then fitSearch text maxBytes mid high
    else fitSearch text maxBytes low (mid - 1)
  else low
termination_by high - low

def fitJsonString (text : Text) (maxBytes : Int) : Text :=
  text.take (fitSearch text maxBytes 0 text.length)

/-! ## `truncate_critical_error` -/

def truncateCriticalError (event : Event) (originalBytes : Int) : Option Event :=
  match Dict.get? event (asText "error") with
  | some (.str error) =>
    let remaining := MAX_EVENT_BYTES - originalBytes + textSize error
    if remaining < 2 then none
    else
      let result := Dict.set event (asText "error") (.str (fitJsonString error remaining))
      if eventSizeBytes result ≤ MAX_EVENT_BYTES then some result else none
  | _ => none

/-! ## `truncate_tool_call` -/

/-- `result["truncated"]` -/
def marker (fields : List Text) (originalBytes : Nat) : Json :=
  .obj [(asText "fields", .arr (fields.map .str)),
    (asText "originalBytes", .num (Nat.toDigits 10 originalBytes))]

/-- Where a text is cut. -/
inductive Place where
  | output
  | arg (place : List Nat)

/-- What the cuts have made of the copy, and its size. -/
structure Cutting where
  args : Json
  /-- `result["output"]`, once it is cut. -/
  output : Option Text
  fields : List Text
  sizeBytes : Int

namespace Cutting

/-- The copy: the event with its own arguments and a marker. -/
def result (event : Event) (originalBytes : Nat) (cut : Cutting) : Event :=
  let copy := Dict.set (Dict.set event (asText "args") cut.args) (asText "truncated")
    (marker cut.fields originalBytes)
  match cut.output with
  | none => copy
  | some output => Dict.set copy (asText "output") (.str output)

/-- `_set_arg` -/
def setArg (cut : Cutting) : Place → Text → Cutting
  | .output, text => { cut with output := some text }
  | .arg place, text => { cut with args := setAt cut.args place (.str text) }

/-- What one more name takes in the marker. -/
def fieldSize (fields : List Text) (path : Text) : Nat :=
  textSize path + if fields = [] then 0 else 2

/-- What `shrink` puts in the place of a text. -/
def replacement (cut : Cutting) (path text : Text) : Text :=
  let sizeBytes := cut.sizeBytes + fieldSize cut.fields path
  let withoutText := sizeBytes - textSize text
  if withoutText + 2 ≤ MAX_EVENT_BYTES then fitJsonString text (MAX_EVENT_BYTES - withoutText)
  else []

def shrink (cut : Cutting) (place : Place) (path text : Text) : Cutting :=
  let sizeBytes := cut.sizeBytes + fieldSize cut.fields path
  let replaced := cut.setArg place (cut.replacement path text)
  { replaced with
    fields := cut.fields ++ [path]
    sizeBytes := sizeBytes - textSize text + textSize (cut.replacement path text) }

/-- The loop over the candidates. -/
def shrinkAll : List Candidate → Cutting → Cutting
  | [], cut => cut
  | c :: rest, cut =>
    let cut := cut.shrink (.arg c.place) c.path c.text
    if cut.sizeBytes ≤ MAX_EVENT_BYTES then cut else shrinkAll rest cut

/-- The copy before the first cut. -/
def start (event : Event) (originalBytes : Nat) (args : Json) : Cutting :=
  let copy : Cutting := { args, output := none, fields := [], sizeBytes := 0 }
  { copy with sizeBytes := eventSizeBytes (copy.result event originalBytes) }

/-- The output is cut first. -/
def cutOutput (event : Event) (cut : Cutting) : Cutting :=
  match (Dict.get? event (asText "output")).bind filledText with
  | some output => cut.shrink .output (asText "output") output
  | none => cut

end Cutting

inductive ToolCallError where
  | keyError
  | valueError
  deriving DecidableEq, Repr

/-- The candidates, the largest first. -/
def candidates (lower : Text → Text) (args : Json) : List Candidate :=
  (argStrings lower args (asText "args")).mergeSort
    fun a b => decide (textSize b.text ≤ textSize a.text)

/-- The copy after the last cut. -/
def Cutting.finished (lower : Text → Text) (event : Event) (originalBytes : Nat) (args : Json) :
    Cutting :=
  let cut := (Cutting.start event originalBytes args).cutOutput event
  if MAX_EVENT_BYTES < cut.sizeBytes then cut.shrinkAll (candidates lower args) else cut

def truncateToolCall (lower : Text → Text) (event : Event) : Except ToolCallError Event :=
  let originalBytes := eventSizeBytes event
  if originalBytes ≤ MAX_EVENT_BYTES then .ok event
  else
    match Dict.get? event (asText "args") with
    | none => .error .keyError
    | some args =>
      let cut := Cutting.finished lower event originalBytes args
      if MAX_EVENT_BYTES < eventSizeBytes (cut.result event originalBytes) then .error .valueError
      else .ok (cut.result event originalBytes)

end BackgroundAgents.Sandbox.EventSize
