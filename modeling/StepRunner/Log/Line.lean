import StepRunner.Json.Printer
import StepRunner.Log.Filter

namespace StepRunner.Log

/-- The name of a level. -/
def Level.name : Level → String
  | .error => "ERROR"
  | .warn => "WARN"
  | .info => "INFO"
  | .debug => "DEBUG"
  | .trace => "TRACE"

/-- A character of a message on a terminal: controls that terminals obey are written out. -/
def terminalChar (c : Char) : List Char :=
  let n := c.toNat
  if n = 0x1B ∨ n = 0x7F then ['\\', 'x'] ++ Text.hexadecimal n
  else if n = 0x07 ∨ n = 0x08 ∨ n = 0x0C then ['\\', 'x', '0'] ++ Text.hexadecimal n
  else if 0x80 ≤ n ∧ n ≤ 0x9F then ['\\', 'u', '\x7b'] ++ Text.hexadecimal n ++ ['\x7d']
  else [c]

/-- Fields as they follow each other in a line. -/
def fieldsText (fields : List (String × Value)) : String :=
  String.intercalate " " (fields.map fun (name, value) => name ++ "=" ++ value.written)

/-- An event as a line, without its time. The span is shown if `withSpan` says so. -/
def Event.plainLine (event : Event) (withSpan : Bool) : String :=
  let span := match event.span with
    | some span =>
      if withSpan then span.name ++ "\x7b" ++ fieldsText span.fields ++ "\x7d: " else ""
    | none => ""
  let message := String.ofList (event.message.toList.flatMap terminalChar)
  let fields := if event.fields = [] then "" else " " ++ fieldsText event.fields
  event.level.name ++ " " ++ span ++ message ++ fields

/-- The value of a field in a line of JSON. -/
def Value.toJson : Value → Json
  | .number n => .natural n
  | .text s => .string s

/-- An event as a line of JSON, without its time. -/
def Event.jsonLine (event : Event) (withSpan : Bool) : String :=
  let fields := ("message", .string event.message) ::
    event.fields.map fun (name, value) => (name, value.toJson)
  let span := match event.span with
    | some span =>
      if withSpan then
        [("span", Json.record ((span.fields.map fun (name, value) => (name, value.toJson)) ++
          [("name", .string span.name)]))]
      else []
    | none => []
  Json.render (Json.record ([("level", .string event.level.name), ("fields", Json.record fields),
    ("target", .string event.channel.name)] ++ span))

/-- The lines of the events that a filter shows. -/
def lines (json : Bool) (filter : Filter) (events : List Event) : List String :=
  (events.filter filter.shows).map fun event =>
    let withSpan := event.span.any filter.showsSpan
    if json then event.jsonLine withSpan else event.plainLine withSpan

end StepRunner.Log
