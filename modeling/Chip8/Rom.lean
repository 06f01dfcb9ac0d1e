import Chip8.FileTree
import Chip8.Layout

/-! # Program files

A program is a file of raw bytes that fits into memory from `programStart` on.
-/

namespace Chip8.Rom

def ofContents (path : String) (contents : Except FileError (List UInt8)) :
    Except Failure (List UInt8) :=
  match contents with
  | .error cause => .error (.rom (.unreadable path cause))
  | .ok bytes =>
    if maxRomSize < bytes.length then
      .error (.rom (.tooLarge (FileTree.baseName path) bytes.length maxRomSize))
    else .ok bytes

def read (t : FileTree) (path : String) : Except Failure (List UInt8) :=
  if path.contains '\x00' then .error (.invalid .pathWithNul)
  else ofContents path (t.read path)

end Chip8.Rom
