import MixedStack.Json.Decode
import MixedStack.Json.Printer
import MixedStack.Json.Reader
import MixedStack.Settings

/-!
# Settings as a document

Any field may be left out, at both levels, and has its standard value then.
-/

namespace MixedStack

namespace ContextLayout

/-- A layout of which some fields may be open. -/
structure Draft where
  ip : Option Word
  bp : Option Word
  stackBase : Option Word
  stackTop : Option Word

namespace Draft

/-- The layout with standard values for what is open. -/
def complete (d : Draft) : ContextLayout where
  ip := d.ip.getD standard.ip
  bp := d.bp.getD standard.bp
  stackBase := d.stackBase.getD standard.stackBase
  stackTop := d.stackTop.getD standard.stackTop

end Draft

def format : Json.Record Draft ContextLayout where
  name := "ContextLayout"
  fields := [
    .kept "ip" Json.Value.toWord Draft.ip fun ip d => { d with ip },
    .kept "bp" Json.Value.toWord Draft.bp fun bp d => { d with bp },
    .kept "stack_base" Json.Value.toWord Draft.stackBase fun stackBase d => { d with stackBase },
    .kept "stack_top" Json.Value.toWord Draft.stackTop fun stackTop d => { d with stackTop }]
  blank := ⟨none, none, none, none⟩
  finish d := .ok d.complete

def toValue (l : ContextLayout) : Json.Value :=
  .object [
    ("ip", .natural l.ip),
    ("bp", .natural l.bp),
    ("stack_base", .natural l.stackBase),
    ("stack_top", .natural l.stackTop)] none

end ContextLayout

namespace Settings

/-- Settings of which some fields may be open. -/
structure Draft where
  loopSymbol : Option String
  contextSymbol : Option String
  layout : Option ContextLayout
  frameLabel : Option String
  callerLimit : Option Word

namespace Draft

/-- The settings with standard values for what is open. -/
def complete (d : Draft) : Settings where
  loopSymbol := d.loopSymbol.getD standard.loopSymbol
  contextSymbol := d.contextSymbol.getD standard.contextSymbol
  layout := d.layout.getD standard.layout
  frameLabel := d.frameLabel.getD standard.frameLabel
  callerLimit := d.callerLimit.getD standard.callerLimit

end Draft

def format : Json.Record Draft Settings where
  name := "UnwinderConfig"
  fields := [
    .kept "interpreter_symbol" Json.Value.toText Draft.loopSymbol
      fun loopSymbol d => { d with loopSymbol },
    .kept "context_symbol" Json.Value.toText Draft.contextSymbol
      fun contextSymbol d => { d with contextSymbol },
    .kept "context_layout" ContextLayout.format.read Draft.layout
      fun layout d => { d with layout },
    .kept "frame_label" Json.Value.toText Draft.frameLabel
      fun frameLabel d => { d with frameLabel },
    .kept "max_interior_frames" (Json.Value.unsigned .count) Draft.callerLimit
      fun callerLimit d => { d with callerLimit }]
  blank := ⟨none, none, none, none, none⟩
  finish d := .ok d.complete

def toValue (s : Settings) : Json.Value :=
  .object [
    ("interpreter_symbol", .text s.loopSymbol),
    ("context_symbol", .text s.contextSymbol),
    ("context_layout", s.layout.toValue),
    ("frame_label", .text s.frameLabel),
    ("max_interior_frames", .natural s.callerLimit)] none

def ofText (cs : List Char) : Json.Decoded Settings :=
  (Json.Document.ofText Json.Document.depthLimit cs).read format.read

/-- The text of settings, with all their fields. -/
def toText (s : Settings) : List Char :=
  s.toValue.written

end Settings

end MixedStack
