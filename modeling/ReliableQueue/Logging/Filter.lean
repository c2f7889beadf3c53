import ReliableQueue.Logging.Directive

/-!
Which records are shown. A filter is a list of directives, each of which sets the least
severe level that is shown for the targets that begin in some way; the directive with
the longest beginning decides.
-/

namespace ReliableQueue.Logging

structure Filter where
  directives : List Directive
deriving DecidableEq, Repr

namespace Filter

/-- A filter without directives shows errors. -/
def ofDirectives (ds : List Directive) : Filter :=
  if ds.isEmpty then ⟨[{ threshold := some .error }]⟩ else ⟨ds⟩

/-- The texts of the directives. -/
def pieces (text : String) : List String := (text.splitOn ",").filter (!·.isEmpty)

/-- The filter in a text, if all of it makes sense. -/
def ofText? (text : String) : Option Filter :=
  ((pieces text).mapM fun s => (Directive.ofText s).toOption).map ofDirectives

/-- The filter in a text, leaving out what makes no sense. -/
def lenient (text : String) : Filter :=
  ofDirectives ((pieces text).filterMap fun s => (Directive.ofText s).toOption)

/-- What a lenient reading leaves out, and why. -/
def leftOut (text : String) : List (String × Directive.Error) :=
  (pieces text).filterMap fun s =>
    match Directive.ofText s with
    | .ok _ => none
    | .error e => some (s, e)

/-- The directive that decides about a target's event with such fields. Of two for the
same events the later one counts. -/
def deciding? (f : Filter) (target : String) (fields : List String) : Option Directive :=
  (f.directives.filter (·.covers target fields)).foldl
    (fun best d =>
      match best with
      | some b => if b.outranks d then some b else some d
      | none => some d)
    none

/-- Whether a record is shown. Its message counts as a field. -/
def shows (f : Filter) (r : Record) : Bool :=
  (f.deciding? r.target ("message" :: r.entry.fields.map Prod.fst)).any
    (·.threshold.admits r.entry.level)

end Filter

end ReliableQueue.Logging
