/-!
# AnchorScan.Failure

What can go wrong, and how it is told.  A `Failure` is a cause; its wording
stands in `Failure.message` alone.  `Failure.causes` is the chain shown where a
program ends: a failure that wraps the text of another layer is followed by
that text.
-/

namespace AnchorScan

/-- What the system reports when a file cannot be opened or read. -/
inductive FileFault where
  | notFound
  | notDirectory
  | isDirectory
  | nulInPath
  /-- A name in the path, or the path itself, has too many octets. -/
  | nameTooLong
  | notText
  | other (text : String)
  deriving DecidableEq, Repr

/-- The text of a file fault. -/
def FileFault.message : FileFault → String
  | .notFound => "No such file or directory (os error 2)"
  | .notDirectory => "Not a directory (os error 20)"
  | .isDirectory => "Is a directory (os error 21)"
  | .nulInPath => "file name contained an unexpected NUL byte"
  | .nameTooLong => "File name too long (os error 36)"
  | .notText => "stream did not contain valid UTF-8"
  | .other text => text

/-- Why a request was refused or a scan ended without an answer. -/
inductive Failure where
  /-- A signature was registered that no stream could show. -/
  | unusablePattern (reason : String)
  /-- So many end-anchored signatures wait for a size that nobody declared. -/
  | sizeUnknown (count : Nat)
  /-- The size of the stream has been declared before. -/
  | sizeDeclaredBefore (size : Nat)
  | startedBefore
  | unstarted
  | closed
  | unusableBufferSize (size : Nat)
  | aborted
  /-- A line of signature definitions cannot be read. -/
  | unreadableLine (line : Nat) (reason : String)
  | unusableSettings (reason : String)
  /-- A configuration file is not the JSON that is expected. -/
  | unreadableSettings (reason : String)
  | file (fault : FileFault)
  deriving DecidableEq, Repr

namespace Failure

/-- One line that tells the failure. -/
def message : Failure → String
  | unusablePattern reason => "Invalid pattern: " ++ reason
  | sizeUnknown count =>
    "Missing total size: " ++ toString count ++ " end-anchored signature(s) registered"
  | sizeDeclaredBefore size => "Total size already set to " ++ toString size
  | startedBefore => "Scan session already started"
  | unstarted => "Scan session not started"
  | closed => "Scan session closed"
  | unusableBufferSize size => "Invalid scan buffer size: " ++ toString size
  | aborted => "Scan aborted"
  | unreadableLine line reason =>
    "Signature definitions line " ++ toString line ++ ": " ++ reason
  | unusableSettings reason => "Invalid configuration: " ++ reason
  | unreadableSettings reason => "Config parse error: " ++ reason
  | file fault => "IO error: " ++ fault.message

/-- The failure's own line, then the text of the layer below that it wraps. -/
def causes : Failure → List String
  | unreadableSettings reason => [message (unreadableSettings reason), reason]
  | file fault => [message (file fault), fault.message]
  | failure => [failure.message]

end Failure

end AnchorScan
