import StateTables.KeyExpression.Parser
import StateTables.Machine.Basic
import StateTables.Text.Blank

/-! # Requests of an interactive scan

A line is text to scan, unless it starts with a colon: then it is a command with
an argument.
-/

namespace StateTables.Session

inductive Request where
  /-- Scan a text from the start state to the end of input. -/
  | scan (text : String)
  | quit
  /-- Return to the start state. -/
  | reset
  /-- Signal the end of input. -/
  | finish
  /-- Scan a text with more to come. -/
  | feed (text : String)
  /-- Scan the keys of an expression with more to come. -/
  | keys (expression : String)
  /-- Set a condition. -/
  | switch (name value : String)
  | unknown (command : String)
deriving DecidableEq, Repr

def Request.ofCommand (command argument : String) : Request :=
  match command with
  | "quit" => .quit
  | "q" => .quit
  | "reset" => .reset
  | "eof" => .finish
  | "feed" => .feed argument
  | "keys" => .keys argument
  | "cond" =>
    let (name, value) := Text.cut ' ' argument
    .switch name value
  | _ => .unknown command

def Request.ofLine (line : String) : Request :=
  match line.toList with
  | ':' :: rest =>
    let (command, argument) := Text.cut ' ' (String.ofList rest)
    .ofCommand command (Text.trim argument)
  | _ => .scan line

def switchValue? (value : String) : Option Bool :=
  match Text.trim value with
  | "on" => some true
  | "true" => some true
  | "1" => some true
  | "off" => some false
  | "false" => some false
  | "0" => some false
  | _ => none

inductive Refusal where
  | unknownCommand (command : String)
  | unknownCondition (name : String)
  | conditionValue (value : String)
  | keys (expression : String) (problem : KeyExpressionError)
  | scan (problem : ScanError)
deriving DecidableEq, Repr

def Refusal.failure : Refusal → Failure
  | .unknownCommand command => .plain ("unknown command :" ++ command)
  | .unknownCondition name => .plain ("unknown condition " ++ Text.Quoted.text name)
  | .conditionValue value =>
    .plain ("condition value must be on or off, is " ++ Text.Quoted.text value)
  | .keys expression problem => problem.failure expression
  | .scan problem => problem.failure

end StateTables.Session
