/-
  Gherkin.Diagnostic
  ──────────────────
  **ERRORS AND THEIR REPORTS.**

  A diagnostic has a code, whose template may have a slot for details, an
  optional place and named details.  Diagnostics can be put together: the
  message of the whole is made of the messages of its parts, line by line.
  Text put into a slot is never looked at again.

    • `Diagnostic.message` — the message, or the detail that is missing,
    • `Diagnostic.attachment?` — the report for a feature file.
-/
import Gherkin.Value

namespace Gherkin

/-- What a diagnostic is about. -/
inductive ErrorCode where
  | inconsistentCellCount
  | unbalancedEventStream
  | multipleErrors
  deriving DecidableEq

namespace ErrorCode

/-- All codes. -/
def all : List ErrorCode := [.inconsistentCellCount, .unbalancedEventStream, .multipleErrors]

/-- The name of a code. -/
def name : ErrorCode → String
  | .inconsistentCellCount => "INCONSISTENT_CELL_COUNT"
  | .unbalancedEventStream => "UNBALANCED_EVENT_STREAM"
  | .multipleErrors => "MULTIPLE_ERRORS"

/-- The code with a name. -/
def ofName? (s : String) : Option ErrorCode := all.find? fun c => c.name = s

/-- The fixed part of the message for a code. -/
def lead : ErrorCode → String
  | .inconsistentCellCount => "inconsistent cell count within the table"
  | .unbalancedEventStream => "Unbalanced event stream: "
  | .multipleErrors => "Parser errors:\n"

/-- Whether details follow the fixed part. -/
def hasSlot : ErrorCode → Bool
  | .inconsistentCellCount => false
  | .unbalancedEventStream => true
  | .multipleErrors => true

end ErrorCode

/-- A detail that a message needs and that was not given. -/
structure MissingDetail where
  name : String
  deriving DecidableEq

/-- A message with the place it is about in front. -/
def placed (location : Option Location) (message : String) : String :=
  match location with
  | some l => "(" ++ l.text ++ "): " ++ message
  | none => message

/-- The named details of a diagnostic. -/
abbrev Details : Type := List (String × Json)

/-- The message for a code: its fixed part, and the details where it has a slot for them. -/
def ErrorCode.fill (code : ErrorCode) (details : Details) : Except MissingDetail String :=
  if code.hasSlot then
    match details.lookup "details" with
    | some value => .ok (code.lead ++ value.display)
    | none => .error ⟨"details"⟩
  else .ok code.lead

/-- An error, or several put together. -/
inductive Diagnostic where
  | general (code : ErrorCode) (location : Option Location) (details : Details)
  /-- An error that keeps what could be made nevertheless. -/
  | salvaged (code : ErrorCode) (location : Option Location) (details : Details) (kept : Value)
  | raggedTable (location : Option Location) (kept : Value)
  | composite (parts : List Diagnostic)
  /-- An error with a ready message, from outside the grammar. -/
  | ready (message : String)

namespace Diagnostic

mutual

/-- The message of a diagnostic. -/
def message : Diagnostic → Except MissingDetail String
  | .general code location details => (code.fill details).map (placed location)
  | .salvaged code location details _ => (code.fill details).map (placed location)
  | .raggedTable location _ => .ok (placed location ErrorCode.inconsistentCellCount.lead)
  | .composite parts =>
    match messages parts with
    | .ok lines => .ok (ErrorCode.multipleErrors.lead ++ "\n".intercalate lines)
    | .error missing => .error missing
  | .ready text => .ok text
termination_by structural d => d

/-- The messages of several diagnostics, or the first detail that is missing. -/
def messages : List Diagnostic → Except MissingDetail (List String)
  | [] => .ok []
  | d :: rest =>
    match d.message with
    | .error missing => .error missing
    | .ok line =>
      match messages rest with
      | .ok lines => .ok (line :: lines)
      | .error missing => .error missing
termination_by structural ds => ds

end

/-- The place of a diagnostic, if it has one. -/
def location? : Diagnostic → Option Location
  | .general _ location _ => location
  | .salvaged _ location _ _ => location
  | .raggedTable location _ => location
  | .composite _ => none
  | .ready _ => none

/-- The named details of a diagnostic; for several put together, their joined messages. -/
def details : Diagnostic → Except MissingDetail Details
  | .general _ _ details => .ok details
  | .salvaged _ _ details _ => .ok details
  | .raggedTable _ _ => .ok []
  | .composite parts =>
    (messages parts).map fun lines => [("details", .text ("\n".intercalate lines))]
  | .ready _ => .ok []

end Diagnostic

/-- A report on a feature file. -/
structure Attachment where
  data : String
  uri : String
  location : Option Location

namespace Attachment

/-- The report as data; without a place there is no key for it. -/
def toJson (a : Attachment) : Json :=
  .object
    [("data", .text a.data),
      ("source", .object (("uri", .text a.uri) ::
        (a.location.toList.map fun l => ("location", Location.schema.write .full l))))]

end Attachment

/-- The report of a diagnostic for a feature file, if its message can be made. -/
def Diagnostic.attachment? (uri : String) (d : Diagnostic) : Option Attachment :=
  match d.message with
  | .ok message => some ⟨message, uri, d.location?⟩
  | .error _ => none

/-- A ragged table found while a rule closed, with what was kept of the rule. -/
structure RaggedTable where
  location : Location
  kept : Value

namespace RaggedTable

/-- The diagnostic for a ragged table. -/
def diagnostic (r : RaggedTable) : Diagnostic := .raggedTable (some r.location) r.kept

/-- The message for a ragged table. -/
def message (r : RaggedTable) : String :=
  placed (some r.location) ErrorCode.inconsistentCellCount.lead

end RaggedTable

end Gherkin
