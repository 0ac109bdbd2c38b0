import MockTree.Calendar.Format
import MockTree.Calendar.Shift
import MockTree.Directive.Capture
import MockTree.Directive.Chance
import MockTree.Directive.Override
/-! The directives that definitions can use without any being added. -/
namespace MockTree.Directive
open Calendar

/-! The current time, moved by an offset and written in a format. -/

def clockSignature : Signature :=
  ⟨[("format", .text "YYYY-MM-DD hh:mm:ss"), ("offset", .null)], []⟩

/-- A moment moved by an offset; what is no offset does not move it. -/
def moved (now : Moment) (offset : Datum) : Except Fault Moment :=
  match offset with
  | .null => .ok now
  | d =>
    match applyOffset now d.plain with
    | .moved m => .ok m
    | .ignored => .ok now
    | .tooFar => .error .overflow

def clock : Directive := fun s call => do
  let m ← Render.ofExcept (moved s.now (clockSignature.get "offset" call.named))
  let pattern := clockSignature.get "format" call.named
  if isText "epoch" pattern then pure (.text (intText (epochMillis m)))
  else if isText "unix" pattern then pure (.text (intText (unixSeconds m)))
  else pure (.text (format m pattern.plain))

/-! Naming a file that is to be the body of the response. -/

def attachmentSignature : Signature := ⟨[("path", .null)], []⟩

/-- What stands in a rendered body before the path of the file. -/
def attachmentMark : List Char := "camouflage_file_helper;".toList

/-- The mark of a file; nothing if there is no such file. -/
def attached (files : FileTree) (path : Datum) : Except Fault Datum := do
  if isNull path then pure .null
  else
    let p ← files.resolve? (.ofString (String.ofList path.plain))
    if ← files.isFile p then pure (.safe (attachmentMark ++ p.text.toList)) else pure .null

def attachment : Directive := fun s call =>
  Render.ofExcept (attached s.files (attachmentSignature.get "path" call.named))

def standard : Registry := [("now", clock), ("randomValue", randomText), ("capture", capture),
  ("num_between", randomNumber), ("file", attachment), ("code", overrideBlock)]

end MockTree.Directive
