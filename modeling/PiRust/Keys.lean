import PiRust.EditTool

/- `Key` and `KeyEvent` of `input/key.rs`, and `InputEvent`. -/
namespace PiRust

open EditTool (Str)

inductive Key where
  | char (text : Str)
  | enter | tab | escape | space | backspace | delete | insert | clear | home | «end»
  | pageUp | pageDown | up | down | left | right
  | function (number : Nat)
  | unknown (data : Str)
  deriving DecidableEq, Repr

structure KeyModifiers where
  shift : Bool
  alt : Bool
  ctrl : Bool
  super : Bool
  deriving DecidableEq, Repr

inductive KeyEventKind where
  | press | repeat | release
  deriving DecidableEq, Repr

structure KeyEvent where
  key : Key
  modifiers : KeyModifiers
  kind : KeyEventKind
  deriving DecidableEq, Repr

inductive InputEvent where
  | key (event : KeyEvent)
  | paste (text : Str)
  | raw (data : Str)
  | resize (columns rows : Nat)
  deriving DecidableEq, Repr

def KeyModifiers.chorded (modifiers : KeyModifiers) : Bool :=
  modifiers.ctrl || modifiers.alt || modifiers.super

def KeyEvent.release (event : KeyEvent) : Bool := event.kind = .release

end PiRust
