import StepRunner.Shell.Format
import StepRunner.Shell.State

namespace StepRunner.Shell

/-- An operation on two numbers. -/
inductive Operation where
  | multiply
  | divide
  | remainder
  | add
  | subtract
  | shiftLeft
  | shiftRight
  | less
  | lessOrEqual
  | greater
  | greaterOrEqual
  | equal
  | notEqual
  | bitAnd
  | bitXor
  | bitOr
  | both
  | either
deriving DecidableEq, Repr

/-- An arithmetic expression. -/
inductive Arithmetic where
  | number (value : Int)
  | named (name : List Char)
  | opposite (operand : Arithmetic)
  | complement (operand : Arithmetic)
  | negation (operand : Arithmetic)
  | binary (operation : Operation) (left right : Arithmetic)
  | choice (condition consequent alternative : Arithmetic)
  | assign (name : List Char) (operation : Option Operation) (value : Arithmetic)
deriving DecidableEq, Repr

/-- Why an expression has no value. -/
inductive ArithmeticError where
  | expectingPrimary
  | expectingEnd
  | divisionByZero
  | illegalNumber (text : List Char)
deriving DecidableEq, Repr

namespace Operation

/-- How the operations are written and how strongly they bind; what starts with another comes
    before it. -/
def table : List (List Char × Operation × Nat) :=
  [("<<", shiftLeft, 8), (">>", shiftRight, 8), ("<=", lessOrEqual, 7),
    (">=", greaterOrEqual, 7), ("==", equal, 6), ("!=", notEqual, 6), ("&&", both, 2),
    ("||", either, 1), ("<", less, 7), (">", greater, 7), ("&", bitAnd, 5), ("^", bitXor, 4),
    ("|", bitOr, 3), ("*", multiply, 10), ("/", divide, 10), ("%", remainder, 10),
    ("+", add, 9), ("-", subtract, 9)].map fun (text, rest) => (text.toList, rest)

/-- The operation at the start of a text, its strength and what follows it. -/
def read? (text : List Char) : Option (Operation × Nat × List Char) :=
  (table.find? fun entry => entry.1.isPrefixOf text).map fun (written, operation, strength) =>
    (operation, strength, text.drop written.length)

private def ofBool (condition : Bool) : Int := if condition then 1 else 0

/-- An operation on the 64 bits of two numbers. -/
private def onBits (f : Nat → Nat → Nat) (left right : Int) : Int :=
  Int.ofNat (f (left % (Nat.pow 2 64 : Nat)).toNat (right % (Nat.pow 2 64 : Nat)).toNat)

/-- The result of an operation, before it is brought into 64 bits. -/
def result (operation : Operation) (left right : Int) : Except ArithmeticError Int :=
  match operation with
  | multiply => .ok (left * right)
  | divide => if right = 0 then .error .divisionByZero else .ok (left.tdiv right)
  | remainder => if right = 0 then .error .divisionByZero else .ok (left.tmod right)
  | add => .ok (left + right)
  | subtract => .ok (left - right)
  | shiftLeft => .ok (left * (Nat.pow 2 (right % 64).toNat : Nat))
  | shiftRight => .ok (left / (Nat.pow 2 (right % 64).toNat : Nat))
  | less => .ok (ofBool (left < right))
  | lessOrEqual => .ok (ofBool (left ≤ right))
  | greater => .ok (ofBool (right < left))
  | greaterOrEqual => .ok (ofBool (right ≤ left))
  | equal => .ok (ofBool (left = right))
  | notEqual => .ok (ofBool (left ≠ right))
  | bitAnd => .ok (onBits (· &&& ·) left right)
  | bitXor => .ok (onBits (· ^^^ ·) left right)
  | bitOr => .ok (onBits (· ||| ·) left right)
  | both => .ok (ofBool (left ≠ 0 ∧ right ≠ 0))
  | either => .ok (ofBool (left ≠ 0 ∨ right ≠ 0))

end Operation

namespace Arithmetic

private def isGap (c : Char) : Bool := c = ' ' || c = '\t' || c = '\n'

private def isNameChar (c : Char) : Bool := c.isAlphanum || c = '_'

/-- The sign of an assignment at the start of a text: the operation that it makes first, if any,
    and what follows. -/
def assignment? (text : List Char) : Option (Option Operation × List Char) :=
  match text with
  | '=' :: '=' :: _ => none
  | '=' :: rest => some (none, rest)
  | _ =>
    match Operation.read? text with
    | some (operation, strength, '=' :: rest) =>
      if strength ∈ [3, 4, 5, 8, 9, 10] then some (some operation, rest) else none
    | _ => none

abbrev Reading := Except ArithmeticError (Arithmetic × List Char)

mutual

/-- An expression at the start of a text, and what follows it. -/
def read : (fuel : Nat) → List Char → Reading
  | 0, _ => .error .expectingPrimary
  | fuel + 1, text => do
    let (condition, rest) ← readOperand fuel text
    let (condition, rest) ← readOperations fuel 1 condition rest
    match rest.dropWhile isGap with
    | '?' :: rest =>
      let (consequent, rest) ← read fuel rest
      match rest.dropWhile isGap with
      | ':' :: rest =>
        let (alternative, rest) ← read fuel rest
        return (.choice condition consequent alternative, rest)
      | _ => throw .expectingPrimary
    | rest => return (condition, rest)

/-- Operations that bind at least as strongly as `least`, with what has been read as their first
    operand. -/
def readOperations : (fuel : Nat) → (least : Nat) → Arithmetic → List Char → Reading
  | 0, _, _, _ => .error .expectingPrimary
  | fuel + 1, least, left, text => do
    let text := text.dropWhile isGap
    match Operation.read? text with
    | none => return (left, text)
    | some (operation, strength, rest) =>
      if strength < least then return (left, text)
      let (right, rest) ← readOperand fuel rest
      let (right, rest) ← readOperations fuel (strength + 1) right rest
      readOperations fuel least (.binary operation left right) rest

/-- A number, a name, a sign before an operand or an expression in brackets. -/
def readOperand : (fuel : Nat) → List Char → Reading
  | 0, _ => .error .expectingPrimary
  | fuel + 1, text => do
    match text.dropWhile isGap with
    | '+' :: rest => readOperand fuel rest
    | '-' :: rest =>
      let (operand, rest) ← readOperand fuel rest
      return (.opposite operand, rest)
    | '~' :: rest =>
      let (operand, rest) ← readOperand fuel rest
      return (.complement operand, rest)
    | '!' :: rest =>
      let (operand, rest) ← readOperand fuel rest
      return (.negation operand, rest)
    | '(' :: rest =>
      let (inside, rest) ← read fuel rest
      match rest.dropWhile isGap with
      | ')' :: rest => return (inside, rest)
      | _ => throw .expectingPrimary
    | c :: rest =>
      let word := (c :: rest).takeWhile isNameChar
      let after := (c :: rest).drop word.length
      if c.isDigit then
        match numberOf word with
        | (value, true) => return (.number value, after)
        | (_, false) => throw .expectingPrimary
      else if word = [] then throw .expectingPrimary
      else
        match assignment? (after.dropWhile isGap) with
        | some (operation, rest) =>
          let (value, rest) ← read fuel rest
          return (.assign word operation value, rest)
        | none => return (.named word, after)
    | [] => throw .expectingPrimary

end

/-- The expression that a text is as a whole. An empty one is zero. -/
def ofText (text : List Char) : Except ArithmeticError Arithmetic := do
  if text.all isGap then return .number 0
  let (expression, rest) ← read (4 * text.length + 4) text
  if rest.all isGap then return expression else throw .expectingEnd

/-- A number in 64 bits. -/
def wrap (n : Int) : Int := n.bmod (Nat.pow 2 64)

/-- The number that a variable holds; without a value it is zero. -/
def valueOf (s : State) (name : List Char) : Except ArithmeticError Int :=
  match (s.get? name).getD [] with
  | [] => .ok 0
  | value =>
    match numberOf value with
    | (held, true) => .ok held
    | (_, false) => .error (.illegalNumber value)

/-- The value of an expression and the state after its assignments. -/
def eval (s : State) : Arithmetic → Except ArithmeticError (Int × State)
  | number value => .ok (wrap value, s)
  | named name => do return (wrap (← valueOf s name), s)
  | opposite operand => do
    let (value, s) ← eval s operand
    return (wrap (-value), s)
  | complement operand => do
    let (value, s) ← eval s operand
    return (-value - 1, s)
  | negation operand => do
    let (value, s) ← eval s operand
    return (if value = 0 then 1 else 0, s)
  | binary operation left right => do
    let (a, s) ← eval s left
    if operation = .both ∧ a = 0 then return (0, s)
    if operation = .either ∧ a ≠ 0 then return (1, s)
    let (b, s) ← eval s right
    return (wrap (← operation.result a b), s)
  | choice condition consequent alternative => do
    let (value, s) ← eval s condition
    if value ≠ 0 then eval s consequent else eval s alternative
  | assign name operation value => do
    let (b, s) ← eval s value
    let result ← match operation with
      | none => pure b
      | some operation => operation.result (← valueOf s name) b
    return (wrap result, s.assign name (toString (wrap result)).toList)

end Arithmetic

end StepRunner.Shell
