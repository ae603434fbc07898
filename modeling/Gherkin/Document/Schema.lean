/-
  Gherkin.Document.Schema
  ───────────────────────
  **THE DATA FOR DOCUMENTS, TOKENS AND EVENTS.**

  A schema for every class of the library.  Fields stand in their fixed
  order, the location first; the keys of the document classes have a spelling
  with underscores and one in camel case.  A child of a feature or rule is an
  object with a `kind` and the element under the same name.
-/
import Gherkin.Document
import Gherkin.Event
import Gherkin.Schema.Read
import Gherkin.Schema.Write

namespace Gherkin

namespace Schema

/-- A record of a class of documents. -/
def model {α : Type} (name : String) (fields : Fields α) : Schema α := .record .model name fields

/-- A text field that is empty when absent. -/
def textOrEmpty {β : Type} (key : FieldKey) (rest : Fields β) : Fields (String × β) :=
  .defaulted key .text "" rest

/-- A list field that is empty when absent. -/
def listOrEmpty {α β : Type} (key : FieldKey) (item : Schema α) (rest : Fields β) :
    Fields (List α × β) :=
  .defaulted key (.list .list item) [] rest

end Schema

open Schema FieldKey

/-! ## §1. Places and tokens. -/

/-- A place: two numbers in range. -/
def Location.schema : Schema Location :=
  .as (model "Location"
      (.required (same "line") .position (.required (same "column") .position .nil)))
    (fun (line, column, ()) => ⟨line, column⟩) (fun l => (l.line, l.column, ())) fun _ => rfl

/-- The names of token types. -/
def TokenType.choice : Choice TokenType := ⟨TokenType.all, TokenType.name, TokenType.ofName?_name⟩

/-- The names of rule types. -/
def RuleType.choice : Choice RuleType := ⟨RuleType.all, RuleType.name, RuleType.ofName?_name⟩

/-- The names of event kinds. -/
def EventKind.choice : Choice EventKind :=
  ⟨EventKind.all, EventKind.name, fun k => by cases k <;> decide⟩

/-- An item: a column without bounds and a text. -/
def Item.schema : Schema Item :=
  .as (.record .entry "Item"
      (.required (same "column") .integer (.required (same "text") .text .nil)))
    (fun (column, text, ()) => ⟨column, text⟩) (fun i => (i.column, i.text, ())) fun _ => rfl

/-- A token. -/
def Token.schema : Schema Token :=
  .as (.record .entry "Token"
      (.required (same "token_type") (.choice .enumeration TokenType.choice)
        (.required (same "location") Location.schema
          (textOrEmpty (same "keyword")
            (textOrEmpty (same "text")
              (.defaulted (same "items") (.list .tuple Item.schema) []
                (.optional (same "gherkin_dialect") .text .nil)))))))
    (fun (type, location, keyword, text, items, dialect, ()) =>
      ⟨type, location, keyword, text, items, dialect⟩)
    (fun t => (t.type, t.location, t.keyword, t.text, t.items, t.dialect, ())) fun _ => rfl

/-- An event: its kind, and a rule type or a token as the kind demands. -/
def Event.schema : Schema Event :=
  .refine (model "Event"
      (.required (same "kind") (.choice .literal EventKind.choice)
        (.optional (same "rule_type") (.choice .enumeration RuleType.choice)
          (.optional (same "token") Token.schema .nil))))
    (fun (kind, type, token, ()) => Event.ofParts (kind, type, token))
    (fun e => (e.parts.1, e.parts.2.1, e.parts.2.2, ())) Event.ofParts_parts

/-! ## §2. Leaves of the document. -/

/-- A class with no fields at all. -/
def bareSchema : Schema Unit := model "GherkinModel" .nil

/-- A class with a place only. -/
def locatedSchema : Schema Location :=
  .as (model "ASTNode" (.required (same "location") Location.schema .nil))
    (fun (location, ()) => location) (fun l => (l, ())) fun _ => rfl

/-- A comment. -/
def Comment.schema : Schema Comment :=
  .as (model "Comment"
      (.required (same "location") Location.schema (.required (same "text") .text .nil)))
    (fun (location, text, ()) => ⟨location, text⟩) (fun c => (c.location, c.text, ())) fun _ => rfl

/-- A tag. -/
def Tag.schema : Schema Tag :=
  .as (model "Tag"
      (.required (same "location") Location.schema (.required (same "name") .text .nil)))
    (fun (location, name, ()) => ⟨location, name⟩) (fun t => (t.location, t.name, ())) fun _ => rfl

/-- A table cell. -/
def TableCell.schema : Schema TableCell :=
  .as (model "TableCell"
      (.required (same "location") Location.schema (.required (same "value") .text .nil)))
    (fun (location, value, ()) => ⟨location, value⟩) (fun c => (c.location, c.value, ()))
    fun _ => rfl

/-- A table row. -/
def TableRow.schema : Schema TableRow :=
  .as (model "TableRow"
      (.required (same "location") Location.schema
        (listOrEmpty (same "cells") TableCell.schema .nil)))
    (fun (location, cells, ()) => ⟨location, cells⟩) (fun r => (r.location, r.cells, ()))
    fun _ => rfl

/-! ## §3. Steps. -/

/-- A data table. -/
def DataTable.schema : Schema DataTable :=
  .as (model "DataTable"
      (.required (same "location") Location.schema
        (.required (same "rows") (.list .list TableRow.schema) .nil)))
    (fun (location, rows, ()) => ⟨location, rows⟩) (fun t => (t.location, t.rows, ())) fun _ => rfl

/-- A doc string. -/
def DocString.schema : Schema DocString :=
  .as (model "DocString"
      (.required (same "location") Location.schema
        (textOrEmpty ⟨"content_type", "contentType"⟩
          (textOrEmpty (same "content") (textOrEmpty (same "delimiter") .nil)))))
    (fun (location, contentType, content, delimiter, ()) =>
      ⟨location, contentType, content, delimiter⟩)
    (fun d => (d.location, d.contentType, d.content, d.delimiter, ())) fun _ => rfl

/-- A step. -/
def Step.schema : Schema Step :=
  .as (model "Step"
      (.required (same "location") Location.schema
        (.required (same "keyword") .text
          (.required (same "text") .text
            (.optional ⟨"doc_string", "docString"⟩ DocString.schema
              (.optional ⟨"data_table", "dataTable"⟩ DataTable.schema .nil))))))
    (fun (location, keyword, text, docString, dataTable, ()) =>
      ⟨location, keyword, text, docString, dataTable⟩)
    (fun s => (s.location, s.keyword, s.text, s.docString, s.dataTable, ())) fun _ => rfl

/-! ## §4. Backgrounds and scenarios. -/

/-- An examples section. -/
def Examples.schema : Schema Examples :=
  .as (model "Examples"
      (.required (same "location") Location.schema
        (listOrEmpty (same "tags") Tag.schema
          (.required (same "keyword") .text
            (.required (same "name") .text
              (textOrEmpty (same "description")
                (.optional ⟨"table_header", "tableHeader"⟩ TableRow.schema
                  (listOrEmpty ⟨"table_body", "tableBody"⟩ TableRow.schema .nil))))))))
    (fun (location, tags, keyword, name, description, header, body, ()) =>
      ⟨location, tags, keyword, name, description, header, body⟩)
    (fun e => (e.location, e.tags, e.keyword, e.name, e.description, e.header, e.body, ()))
    fun _ => rfl

/-- A scenario. -/
def Scenario.schema : Schema Scenario :=
  .as (model "Scenario"
      (.required (same "location") Location.schema
        (listOrEmpty (same "tags") Tag.schema
          (.required (same "keyword") .text
            (.required (same "name") .text
              (textOrEmpty (same "description")
                (listOrEmpty (same "steps") Step.schema
                  (listOrEmpty (same "examples") Examples.schema .nil))))))))
    (fun (location, tags, keyword, name, description, steps, examples, ()) =>
      ⟨location, tags, keyword, name, description, steps, examples⟩)
    (fun s => (s.location, s.tags, s.keyword, s.name, s.description, s.steps, s.examples, ()))
    fun _ => rfl

/-- A background. -/
def Background.schema : Schema Background :=
  .as (model "Background"
      (.required (same "location") Location.schema
        (.required (same "keyword") .text
          (.required (same "name") .text
            (textOrEmpty (same "description")
              (listOrEmpty (same "steps") Step.schema .nil))))))
    (fun (location, keyword, name, description, steps, ()) =>
      ⟨location, keyword, name, description, steps⟩)
    (fun b => (b.location, b.keyword, b.name, b.description, b.steps, ())) fun _ => rfl

/-! ## §5. Children. -/

/-- An element as a child: an object with its kind, and the element under that name. -/
def Schema.child {α : Type} (name kind : String) (element : Schema α) : Schema α :=
  .as (model name
      (.defaulted (same "kind") (.choice .literal (.only kind)) ()
        (.required (same kind) element .nil)))
    (fun ((), a, ()) => a) (fun a => ((), a, ())) fun _ => rfl

/-- A background as a child. -/
def Background.childSchema : Schema Background :=
  .child "BackgroundChild" "background" Background.schema

/-- A scenario as a child. -/
def Scenario.childSchema : Schema Scenario := .child "ScenarioChild" "scenario" Scenario.schema

/-- A child of a rule. -/
def RuleChild.schema : Schema RuleChild :=
  .as (.union (.more "background" Background.childSchema (.last "scenario" Scenario.childSchema)))
    (fun
      | .inl b => .background b
      | .inr s => .scenario s)
    (fun
      | .background b => .inl b
      | .scenario s => .inr s)
    fun c => by cases c <;> rfl

/-- A rule. -/
def Rule.schema : Schema Rule :=
  .as (model "Rule"
      (.required (same "location") Location.schema
        (.required (same "keyword") .text
          (.required (same "name") .text
            (textOrEmpty (same "description")
              (listOrEmpty (same "children") RuleChild.schema .nil))))))
    (fun (location, keyword, name, description, children, ()) =>
      ⟨location, keyword, name, description, children⟩)
    (fun r => (r.location, r.keyword, r.name, r.description, r.children, ())) fun _ => rfl

/-- A rule as a child. -/
def Rule.childSchema : Schema Rule := .child "FeatureRuleChild" "rule" Rule.schema

/-- A child of a feature. -/
def FeatureChild.schema : Schema FeatureChild :=
  .as (.union (.more "background" Background.childSchema
      (.more "scenario" Scenario.childSchema (.last "rule" Rule.childSchema))))
    (fun
      | .inl b => .background b
      | .inr (.inl s) => .scenario s
      | .inr (.inr r) => .rule r)
    (fun
      | .background b => .inl b
      | .scenario s => .inr (.inl s)
      | .rule r => .inr (.inr r))
    fun c => by cases c <;> rfl

/-! ## §6. Features and documents. -/

/-- A feature. -/
def Feature.schema : Schema Feature :=
  .as (model "Feature"
      (.required (same "location") Location.schema
        (listOrEmpty (same "tags") Tag.schema
          (textOrEmpty (same "language")
            (.required (same "keyword") .text
              (.required (same "name") .text
                (textOrEmpty (same "description")
                  (listOrEmpty (same "children") FeatureChild.schema .nil))))))))
    (fun (location, tags, language, keyword, name, description, children, ()) =>
      ⟨location, tags, language, keyword, name, description, children⟩)
    (fun f =>
      (f.location, f.tags, f.language, f.keyword, f.name, f.description, f.children, ()))
    fun _ => rfl

/-- A document. -/
def Document.schema : Schema Document :=
  .as (model "GherkinDocument"
      (textOrEmpty (same "uri")
        (.optional (same "feature") Feature.schema
          (listOrEmpty (same "comments") Comment.schema .nil))))
    (fun (uri, feature, comments, ()) => ⟨uri, feature, comments⟩)
    (fun d => (d.uri, d.feature, d.comments, ())) fun _ => rfl

/-- The document as data. -/
def Document.toJson (style : WriteStyle) (d : Document) : Json := Document.schema.write style d

end Gherkin
