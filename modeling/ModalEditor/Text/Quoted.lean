import ModalEditor.Cluster.Kind
import ModalEditor.Text.Basic
import ModalEditor.Text.Unprintable

/-! # Quoted text

A quoted text stands between quotation marks and shows every character: what would not be seen, or
would be seen on another character, is written as its code point in hexadecimal.
-/

namespace ModalEditor.Text

/-- Whether a character is drawn on the one before it. Skin tones also have a glyph of their own. -/
def isMark (c : Char) : Bool :=
  match CharKind.of c with
  | .extender => !(0x1F3FB ≤ c.toNat && c.toNat ≤ 0x1F3FF)
  | .linker | .nonJoiner => true
  | _ => false

def escape (c : Char) : Text :=
  match c with
  | '\x00' => ['\\', '0']
  | '\t' => ['\\', 't']
  | '\r' => ['\\', 'r']
  | '\n' => ['\\', 'n']
  | '"' => ['\\', '"']
  | '\\' => ['\\', '\\']
  | c =>
    if isMark c || Table.unprintable.covers c.toNat then
      '\\' :: 'u' :: '\x7b' :: Nat.toDigits 16 c.toNat ++ ['\x7d']
    else [c]

def quote (text : Text) : Text :=
  '"' :: text.flatMap escape ++ ['"']

end ModalEditor.Text
