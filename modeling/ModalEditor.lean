import ModalEditor.Config.Reader
import ModalEditor.Screen
import ModalEditor.Script
import ModalEditor.Proofs.Boundaries
import ModalEditor.Proofs.KeyReader
import ModalEditor.Proofs.Pressing
import ModalEditor.Proofs.ReadOnce
import ModalEditor.Proofs.Picture
import ModalEditor.Proofs.Recording
import ModalEditor.Proofs.SplitCalls
import ModalEditor.Proofs.Refusal
import ModalEditor.Proofs.EditBounds
import ModalEditor.Proofs.Fitting
import ModalEditor.Proofs.CaretRests
import ModalEditor.Proofs.PictureKept
import ModalEditor.Proofs.Typing
import ModalEditor.Proofs.Repetition
import ModalEditor.Proofs.CountedKeys
import ModalEditor.Proofs.FlatPage
import ModalEditor.Proofs.CutText
import ModalEditor.Proofs.WholeLines
import ModalEditor.Proofs.PendingKeys
import ModalEditor.Proofs.AskedEdits
import ModalEditor.Proofs.NoTrace
import ModalEditor.Proofs.BackToNormal
import ModalEditor.Proofs.StoredSeparators
import ModalEditor.Proofs.SeparatorSets
import ModalEditor.Proofs.StaleCaret
import ModalEditor.Proofs.RememberedColumn
import ModalEditor.Proofs.HostsAgree
import ModalEditor.Proofs.ClampedCaret
import ModalEditor.Proofs.Terminal
import ModalEditor.Proofs.PutLines
import ModalEditor.Proofs.Words
import ModalEditor.Proofs.WordMotions
import ModalEditor.Proofs.WordList
import ModalEditor.Proofs.Slices
import ModalEditor.Proofs.VerticalWalk
import ModalEditor.Proofs.Replacing
import ModalEditor.Proofs.Standstill
import ModalEditor.Proofs.CaretRow
import ModalEditor.Proofs.PutText
import ModalEditor.Proofs.CutAndPut
import ModalEditor.Proofs.Seams
import ModalEditor.Proofs.PrintedCounts
import ModalEditor.Proofs.CheckedMotions
import ModalEditor.Proofs.CheckedCommands
import ModalEditor.Proofs.KeyedText
import ModalEditor.Proofs.TypedBack
import ModalEditor.Proofs.JoinedLines
import ModalEditor.Proofs.ShownChars
import ModalEditor.Proofs.ReadCommands
