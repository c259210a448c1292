/-!
# Errors of the operating system

An error carries the system's number, or a text of its own where no system call was made.
-/

namespace RebasePlan

/-- The texts of the system's error numbers, from 0 on. -/
def systemErrorTexts : List String := [
    "Success", "Operation not permitted", "No such file or directory", "No such process",
    "Interrupted system call", "Input/output error", "No such device or address",
    "Argument list too long", "Exec format error", "Bad file descriptor", "No child processes",
    "Resource temporarily unavailable", "Cannot allocate memory", "Permission denied",
    "Bad address", "Block device required", "Device or resource busy", "File exists",
    "Invalid cross-device link", "No such device", "Not a directory", "Is a directory",
    "Invalid argument", "Too many open files in system", "Too many open files",
    "Inappropriate ioctl for device", "Text file busy", "File too large",
    "No space left on device", "Illegal seek", "Read-only file system", "Too many links",
    "Broken pipe", "Numerical argument out of domain", "Numerical result out of range",
    "Resource deadlock avoided", "File name too long", "No locks available",
    "Function not implemented", "Directory not empty", "Too many levels of symbolic links",
    "Unknown error 41", "No message of desired type", "Identifier removed",
    "Channel number out of range", "Level 2 not synchronized", "Level 3 halted", "Level 3 reset",
    "Link number out of range", "Protocol driver not attached", "No CSI structure available",
    "Level 2 halted", "Invalid exchange", "Invalid request descriptor", "Exchange full",
    "No anode", "Invalid request code", "Invalid slot", "Unknown error 58",
    "Bad font file format", "Device not a stream", "No data available", "Timer expired",
    "Out of streams resources", "Machine is not on the network", "Package not installed",
    "Object is remote", "Link has been severed", "Advertise error", "Srmount error",
    "Communication error on send", "Protocol error", "Multihop attempted", "RFS specific error",
    "Bad message", "Value too large for defined data type", "Name not unique on network",
    "File descriptor in bad state", "Remote address changed",
    "Can not access a needed shared library", "Accessing a corrupted shared library",
    ".lib section in a.out corrupted", "Attempting to link in too many shared libraries",
    "Cannot exec a shared library directly", "Invalid or incomplete multibyte or wide character",
    "Interrupted system call should be restarted", "Streams pipe error", "Too many users",
    "Socket operation on non-socket", "Destination address required", "Message too long",
    "Protocol wrong type for socket", "Protocol not available", "Protocol not supported",
    "Socket type not supported", "Operation not supported", "Protocol family not supported",
    "Address family not supported by protocol", "Address already in use",
    "Cannot assign requested address", "Network is down", "Network is unreachable",
    "Network dropped connection on reset", "Software caused connection abort",
    "Connection reset by peer", "No buffer space available",
    "Transport endpoint is already connected", "Transport endpoint is not connected",
    "Cannot send after transport endpoint shutdown", "Too many references: cannot splice",
    "Connection timed out", "Connection refused", "Host is down", "No route to host",
    "Operation already in progress", "Operation now in progress", "Stale file handle",
    "Structure needs cleaning", "Not a XENIX named type file", "No XENIX semaphores available",
    "Is a named type file", "Remote I/O error", "Disk quota exceeded", "No medium found",
    "Wrong medium type", "Operation canceled", "Required key not available", "Key has expired",
    "Key has been revoked", "Key was rejected by service", "Owner died", "State not recoverable",
    "Operation not possible due to RF-kill", "Memory page has hardware error"]

/-- Why an operation on files or processes failed. -/
inductive IoError where
  /-- The system call failed with this number. -/
  | system (number : Int)
  /-- The operation was refused before any system call, with this text. -/
  | refused (text : String)
  deriving DecidableEq, Repr

namespace IoError

/-- What the system says about an error number. -/
def systemText (number : Int) : String :=
  let known := if number < 0 then none else systemErrorTexts[number.toNat]?
  known.getD s!"Unknown error {number}"

/-- The text of an error. -/
def message : IoError → String
  | system number => s!"{systemText number} (os error {number})"
  | refused text => text

/-- The file or directory does not exist. -/
def missing : IoError := .system 2
/-- The arguments take too much room. -/
def argumentsTooLong : IoError := .system 7
/-- The file is no program. -/
def notAProgram : IoError := .system 8
/-- The file must not be used this way. -/
def denied : IoError := .system 13
/-- Something of this name exists. -/
def taken : IoError := .system 17
/-- A directory was expected. -/
def notADirectory : IoError := .system 20
/-- No directory was expected. -/
def isADirectory : IoError := .system 21
/-- The path, or a name in it, is too long. -/
def nameTooLong : IoError := .system 36

/-- A file name holds a NUL. -/
def nulInName : IoError := .refused "file name contained an unexpected NUL byte"
/-- An argument, a directory or a variable of a new process holds a NUL. -/
def nulInCommand : IoError := .refused "nul byte found in provided data"
/-- A text file is not UTF-8. -/
def notUtf8 : IoError := .refused "stream did not contain valid UTF-8"

end IoError

end RebasePlan
