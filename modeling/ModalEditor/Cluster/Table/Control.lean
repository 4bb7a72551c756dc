import ModalEditor.Text.CodeRange

/-! # Control characters
-/

namespace ModalEditor.Table

/-- Characters that stand alone: controls, separators of lines and paragraphs, and invisible format
characters. Carriage return and line feed are among them and are kinds of their own. -/
def control : CodeRanges :=
  [(0x0, 0x1F), (0x7F, 0x9F), (0xAD, 0xAD), (0x61C, 0x61C), (0x180E, 0x180E), (0x200B, 0x200B),
    (0x200E, 0x200F), (0x2028, 0x202E), (0x2060, 0x206F), (0xFEFF, 0xFEFF), (0xFFF0, 0xFFFB),
    (0x13430, 0x1343F), (0x1BCA0, 0x1BCA3), (0x1D173, 0x1D17A), (0xE0000, 0xE001F),
    (0xE0080, 0xE00FF), (0xE01F0, 0xE0FFF)]

end ModalEditor.Table
