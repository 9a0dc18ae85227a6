/-!
Why a program cannot be loaded: it does not fit, or its file cannot be read.
-/
namespace Chip8

/-- Why the system refuses to read a file. -/
inductive ReadError where
  | noSuchFile
  | isDirectory
  | notDirectory
  | nameTooLong
  | other (text : String)
deriving DecidableEq

namespace ReadError

def message : ReadError → String
  | noSuchFile => "No such file or directory"
  | isDirectory => "Is a directory"
  | notDirectory => "Not a directory"
  | nameTooLong => "File name too long"
  | other text => text

end ReadError

/-- Why a program cannot be loaded. -/
inductive RomError where
  | tooLarge (size room : Nat)
  | unreadable (path : String) (why : ReadError)
deriving DecidableEq

namespace RomError

def message : RomError → String
  | tooLarge size room => "ROM is " ++ toString size ++ " bytes, only " ++ toString room ++ " fit in memory"
  | unreadable path why => "Could not read ROM " ++ path ++ ": " ++ why.message

end RomError

end Chip8
