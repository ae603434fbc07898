/-
  Gherkin.Stream
  ──────────────
  **BUILDING THE DOCUMENT FROM A STREAM OF EVENTS.**

  `Builder.run` starts afresh and handles the events in order.  Openings and
  closings have to nest: `Imbalance` says in which of three ways they do not.
  Ragged tables are collected and the run goes on, unless it is told to stop
  at the first one.  Anything else that a closing rule reports ends the run.

  `Progress` is what a run knows between two events, `Progress.advance`
  handles one event, `Progress.drive` all of them.
-/
import Gherkin.Builder
import Gherkin.Event

namespace Gherkin

/-! ## §1. What a run can report. -/

/-- How openings and closings fail to nest. -/
inductive Imbalance where
  /-- A rule closes while none is open. -/
  | nothingOpen (closed : RuleType)
  /-- A rule closes while another one is the innermost open rule. -/
  | mismatch (closed innermost : RuleType)
  /-- A rule is still open at the end. -/
  | neverClosed (innermost : RuleType)
  deriving DecidableEq

namespace Imbalance

/-- What is wrong with the nesting. -/
def details : Imbalance → String
  | .nothingOpen closed => "'" ++ closed.name ++ "' closed while no rule is open"
  | .mismatch closed innermost =>
    "'" ++ closed.name ++ "' closed while '" ++ innermost.name ++ "' is open"
  | .neverClosed innermost => "'" ++ innermost.name ++ "' was never closed"

/-- The message for a stream that does not nest. -/
def message (i : Imbalance) : String := ErrorCode.unbalancedEventStream.lead ++ i.details

end Imbalance

/-- Why a run has no result. -/
inductive StreamFault where
  | unbalanced (cause : Imbalance)
  | builder (fault : BuilderFault)

/-- A note on the progress of a run. -/
inductive LogEntry where
  | building (uri : String)
  | errorClosing (type : RuleType) (message : String)
  deriving DecidableEq

namespace LogEntry

/-- The text of a note. -/
def text : LogEntry → String
  | .building uri => "Building document for '" ++ (if uri = "" then "<unknown>" else uri) ++ "'"
  | .errorClosing type message => "Error closing '" ++ type.name ++ "': " ++ message

end LogEntry

/-- The result of a run: the document, if one was built, and the ragged tables in order. -/
structure Build where
  document : Option Document
  errors : List RaggedTable

/-- A run that has ended: its outcome, its notes, and the builder as the run left it. -/
structure Run where
  outcome : Except StreamFault Build
  log : List LogEntry
  builder : Builder

/-! ## §2. One event after the other. -/

/-- What a run knows between two events. -/
structure Progress where
  builder : Builder
  /-- The rules opened and not yet closed, the innermost first. -/
  openRules : List RuleType
  errors : List RaggedTable
  log : List LogEntry

/-- How the handling of one event ends. -/
inductive Advance where
  | goOn (next : Progress)
  | stop (next : Progress)
  | fail (fault : StreamFault) (next : Progress)

namespace Progress

/-- Before the first event. -/
def start (b : Builder) : Progress := ⟨b.reset, [], [], [.building b.uri]⟩

/-- Closes a rule of the given type, which is known to be the innermost open one. -/
def close (stopAtError : Bool) (type : RuleType) (outer : List RuleType) (p : Progress) : Advance :=
  match p.builder.closeRule with
  | (.ok _, b) => .goOn { p with builder := b, openRules := outer }
  | (.error (.ragged table), b) =>
    let next : Progress :=
      { builder := b, openRules := outer, errors := p.errors ++ [table],
        log := p.log ++ [.errorClosing type table.message] }
    if stopAtError then .stop next else .goOn next
  | (.error fault, b) => .fail (.builder fault) { p with builder := b, openRules := outer }

/-- Handles one event. -/
def advance (stopAtError : Bool) (p : Progress) : Event → Advance
  | .leaf token _ =>
    match p.builder.accept token with
    | .ok b => .goOn { p with builder := b }
    | .error cause => .fail (.builder (.underflow cause)) p
  | .opening type _ =>
    .goOn { p with builder := p.builder.openRule type, openRules := type :: p.openRules }
  | .closing type _ =>
    match p.openRules with
    | [] => .fail (.unbalanced (.nothingOpen type)) p
    | innermost :: outer =>
      if innermost = type then p.close stopAtError type outer
      else .fail (.unbalanced (.mismatch type innermost)) p

/-- The run that ends without a result. -/
def fail (fault : StreamFault) (p : Progress) : Run := ⟨.error fault, p.log, p.builder⟩

/-- The run that ends with the result so far. -/
def finish (p : Progress) : Run :=
  match p.builder.document? with
  | .ok document => ⟨.ok ⟨document, p.errors⟩, p.log, p.builder⟩
  | .error cause => p.fail (.builder (.underflow cause))

/-- Handles all events and ends the run. -/
def drive (stopAtError : Bool) (p : Progress) : List Event → Run
  | [] =>
    match p.openRules with
    | [] => p.finish
    | innermost :: _ => p.fail (.unbalanced (.neverClosed innermost))
  | e :: rest =>
    match p.advance stopAtError e with
    | .goOn next => next.drive stopAtError rest
    | .stop next => next.finish
    | .fail fault next => next.fail fault

end Progress

/-! ## §3. Whole streams. -/

/-- Builds from a stream of events with a builder, which starts afresh. -/
def Builder.run (stopAtError : Bool) (b : Builder) (events : List Event) : Run :=
  (Progress.start b).drive stopAtError events

/-- Builds from a stream of events for a file. -/
def Run.ofEvents (uri : String) (stopAtError : Bool) (events : List Event) : Run :=
  (Builder.new uri).run stopAtError events

/-- Why a document could not be built. -/
inductive BuildFault where
  | stream (fault : StreamFault)
  /-- All ragged tables, put together. -/
  | errors (whole : Diagnostic)

/-- The document of a stream of events, provided that all tables are rectangular. -/
def Document.ofEvents (uri : String) (events : List Event) : Except BuildFault (Option Document) :=
  match (Run.ofEvents uri false events).outcome with
  | .error fault => .error (.stream fault)
  | .ok ⟨document, []⟩ => .ok document
  | .ok ⟨_, errors⟩ => .error (.errors (.composite (errors.map RaggedTable.diagnostic)))

end Gherkin
