import StepRunner.Log.Event
import StepRunner.Text.Ascii
import StepRunner.Text.Blank
import StepRunner.Text.Decimal
import StepRunner.Text.Pieces

namespace StepRunner.Log

/-- How much passes: nothing, or all events up to a level. -/
inductive Threshold where
  | off
  | upTo (level : Level)
deriving DecidableEq, Repr

/-- The place of a level: graver ones come first. -/
def Level.rank : Level → Nat
  | .error => 1
  | .warn => 2
  | .info => 3
  | .debug => 4
  | .trace => 5

/-- Whether an event of a level passes. -/
def Threshold.admits : Threshold → Level → Bool
  | .off, _ => false
  | .upTo limit, level => level.rank ≤ limit.rank

/-- A rule of a filter: what passes for the channels whose names start with `target`. With `span`
    it holds only inside spans of that name. -/
structure Directive where
  target : Option (List Char)
  span : Option (List Char)
  threshold : Threshold
deriving DecidableEq, Repr

/-- Why a rule cannot be read. -/
inductive DirectiveError where
  | malformed
  | unknownLevel
deriving DecidableEq, Repr

/-- The text of the error. -/
def DirectiveError.message : DirectiveError → String
  | .malformed => "invalid filter directive"
  | .unknownLevel =>
    "error parsing level filter: expected one of \"off\", \"error\", \"warn\", \"info\", \"debug\", \"trace\", or a number 0-5"

/-- The threshold that a number or name stands for. -/
def Threshold.ofText? (text : List Char) : Option Threshold :=
  match Text.unsigned? Text.maxWord64 text with
  | some 0 => some .off
  | some 1 => some (.upTo .error)
  | some 2 => some (.upTo .warn)
  | some 3 => some (.upTo .info)
  | some 4 => some (.upTo .debug)
  | some 5 => some (.upTo .trace)
  | some _ => none
  | none =>
    match Text.lowerAscii (String.ofList text) with
    | "" | "error" => some (.upTo .error)
    | "off" => some .off
    | "warn" => some (.upTo .warn)
    | "info" => some (.upTo .info)
    | "debug" => some (.upTo .debug)
    | "trace" => some (.upTo .trace)
    | _ => none

/-- Whether a rule may start with the character. -/
private def mayStart (c : Char) : Bool :=
  "-:_[".toList.contains c || c.isAlphanum || 128 ≤ c.toNat

/-- The threshold after an equals sign; without a text everything passes. -/
private def thresholdAfter (text : List Char) : Except DirectiveError Threshold :=
  if text = [] then .ok (.upTo .trace)
  else
    match Threshold.ofText? text with
    | some threshold => .ok threshold
    | none => .error .unknownLevel

/-- The rule that a text is: a level, a target, or a target and a level; a target may be followed
    by the name of a span in square brackets. The marks are looked for in the text without the
    blanks around it, and the parts are then taken from the text as it is. -/
def Directive.parse (text : List Char) : Except DirectiveError Directive :=
  let trimmed := Text.trim Text.isBlank text
  let first := (trimmed.takeWhile fun c => c ≠ '=' ∧ c ≠ '[').length
  let target := text.take first
  if !trimmed.head?.any mayStart then .error .malformed
  else
    match trimmed.drop first with
    | '=' :: _ => do return ⟨some target, none, ← thresholdAfter (text.drop (first + 1))⟩
    | '[' :: rest =>
      let length := (rest.takeWhile (· ≠ ']')).length
      let span := (text.drop (first + 1)).take length
      let target := if first = 0 then none else some target
      match rest.drop length with
      | [']'] => .ok ⟨target, some span, .upTo .trace⟩
      | ']' :: '=' :: _ => do
        return ⟨target, some span, ← thresholdAfter (text.drop (first + length + 3))⟩
      | _ => .error .malformed
    | _ =>
      match Threshold.ofText? text with
      | some threshold => .ok ⟨none, none, threshold⟩
      | none => .ok ⟨some text, none, .upTo .trace⟩

/-- The rules that decide which events are shown. -/
structure Filter where
  directives : List Directive
deriving DecidableEq, Repr

namespace Filter

/-- The filter that a text gives, and the complaints about rules in it that cannot be read. Where
    no rule is left, everything up to `level` passes. -/
def ofText (level : Level) (text : String) : Filter × List String :=
  let parts := (Text.pieces ',' text.toList).filter (· ≠ [])
  let complaints := parts.filterMap fun part =>
    match Directive.parse part with
    | .ok _ => none
    | .error e => some ("ignoring `" ++ String.ofList part ++ "`: " ++ e.message)
  match parts.filterMap fun part => (Directive.parse part).toOption with
  | [] => (⟨[⟨none, none, .upTo level⟩]⟩, complaints)
  | directives => (⟨directives⟩, complaints)

/-- How well a rule fits a channel, if it does: the more of the name it gives, the better. -/
private def fit? (channel : Channel) (directive : Directive) : Option Nat :=
  match directive.target with
  | none => some 0
  | some target =>
    if target.isPrefixOf channel.name.toList then some (target.length + 1) else none

/-- The threshold for a channel outside spans: of the rules that fit best, the last decides. -/
def threshold (filter : Filter) (channel : Channel) : Threshold :=
  let plain := filter.directives.filter (·.span.isNone)
  (plain.foldl (fun (best : Option (Nat × Threshold)) directive =>
    match fit? channel directive, best with
    | none, _ => best
    | some fit, some (most, _) => if most ≤ fit then some (fit, directive.threshold) else best
    | some fit, none => some (fit, directive.threshold)) none).elim .off (·.2)

/-- The rules that hold inside a span. -/
private def inside (filter : Filter) (span : Span) : List Directive :=
  filter.directives.filter fun directive =>
    directive.span = some span.name.toList && (fit? span.channel directive).isSome

/-- Whether a span is shown. -/
def showsSpan (filter : Filter) (span : Span) : Bool :=
  (filter.threshold span.channel).admits span.level || !(filter.inside span).isEmpty

/-- Whether an event is shown. -/
def shows (filter : Filter) (event : Event) : Bool :=
  (filter.threshold event.channel).admits event.level ||
    event.span.any fun span => (filter.inside span).any (·.threshold.admits event.level)

end Filter

end StepRunner.Log
