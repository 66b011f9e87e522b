/-
What can go wrong. Each error has a code of its own and a class that tells how far it reaches: the
whole run, one file, or one rule.
-/
import Codemod.Path

namespace Codemod

/-- The message that the system gives for an error number that is not negative. -/
def errnoText (n : Nat) : String :=
  match n with
  | 0 => "Success"
  | 1 => "Operation not permitted"
  | 2 => "No such file or directory"
  | 3 => "No such process"
  | 4 => "Interrupted system call"
  | 5 => "Input/output error"
  | 6 => "No such device or address"
  | 7 => "Argument list too long"
  | 8 => "Exec format error"
  | 9 => "Bad file descriptor"
  | 10 => "No child processes"
  | 11 => "Resource temporarily unavailable"
  | 12 => "Cannot allocate memory"
  | 13 => "Permission denied"
  | 14 => "Bad address"
  | 15 => "Block device required"
  | 16 => "Device or resource busy"
  | 17 => "File exists"
  | 18 => "Invalid cross-device link"
  | 19 => "No such device"
  | 20 => "Not a directory"
  | 21 => "Is a directory"
  | 22 => "Invalid argument"
  | 23 => "Too many open files in system"
  | 24 => "Too many open files"
  | 25 => "Inappropriate ioctl for device"
  | 26 => "Text file busy"
  | 27 => "File too large"
  | 28 => "No space left on device"
  | 29 => "Illegal seek"
  | 30 => "Read-only file system"
  | 31 => "Too many links"
  | 32 => "Broken pipe"
  | 33 => "Numerical argument out of domain"
  | 34 => "Numerical result out of range"
  | 35 => "Resource deadlock avoided"
  | 36 => "File name too long"
  | 37 => "No locks available"
  | 38 => "Function not implemented"
  | 39 => "Directory not empty"
  | 40 => "Too many levels of symbolic links"
  | 42 => "No message of desired type"
  | 43 => "Identifier removed"
  | 44 => "Channel number out of range"
  | 45 => "Level 2 not synchronized"
  | 46 => "Level 3 halted"
  | 47 => "Level 3 reset"
  | 48 => "Link number out of range"
  | 49 => "Protocol driver not attached"
  | 50 => "No CSI structure available"
  | 51 => "Level 2 halted"
  | 52 => "Invalid exchange"
  | 53 => "Invalid request descriptor"
  | 54 => "Exchange full"
  | 55 => "No anode"
  | 56 => "Invalid request code"
  | 57 => "Invalid slot"
  | 59 => "Bad font file format"
  | 60 => "Device not a stream"
  | 61 => "No data available"
  | 62 => "Timer expired"
  | 63 => "Out of streams resources"
  | 64 => "Machine is not on the network"
  | 65 => "Package not installed"
  | 66 => "Object is remote"
  | 67 => "Link has been severed"
  | 68 => "Advertise error"
  | 69 => "Srmount error"
  | 70 => "Communication error on send"
  | 71 => "Protocol error"
  | 72 => "Multihop attempted"
  | 73 => "RFS specific error"
  | 74 => "Bad message"
  | 75 => "Value too large for defined data type"
  | 76 => "Name not unique on network"
  | 77 => "File descriptor in bad state"
  | 78 => "Remote address changed"
  | 79 => "Can not access a needed shared library"
  | 80 => "Accessing a corrupted shared library"
  | 81 => ".lib section in a.out corrupted"
  | 82 => "Attempting to link in too many shared libraries"
  | 83 => "Cannot exec a shared library directly"
  | 84 => "Invalid or incomplete multibyte or wide character"
  | 85 => "Interrupted system call should be restarted"
  | 86 => "Streams pipe error"
  | 87 => "Too many users"
  | 88 => "Socket operation on non-socket"
  | 89 => "Destination address required"
  | 90 => "Message too long"
  | 91 => "Protocol wrong type for socket"
  | 92 => "Protocol not available"
  | 93 => "Protocol not supported"
  | 94 => "Socket type not supported"
  | 95 => "Operation not supported"
  | 96 => "Protocol family not supported"
  | 97 => "Address family not supported by protocol"
  | 98 => "Address already in use"
  | 99 => "Cannot assign requested address"
  | 100 => "Network is down"
  | 101 => "Network is unreachable"
  | 102 => "Network dropped connection on reset"
  | 103 => "Software caused connection abort"
  | 104 => "Connection reset by peer"
  | 105 => "No buffer space available"
  | 106 => "Transport endpoint is already connected"
  | 107 => "Transport endpoint is not connected"
  | 108 => "Cannot send after transport endpoint shutdown"
  | 109 => "Too many references: cannot splice"
  | 110 => "Connection timed out"
  | 111 => "Connection refused"
  | 112 => "Host is down"
  | 113 => "No route to host"
  | 114 => "Operation already in progress"
  | 115 => "Operation now in progress"
  | 116 => "Stale file handle"
  | 117 => "Structure needs cleaning"
  | 118 => "Not a XENIX named type file"
  | 119 => "No XENIX semaphores available"
  | 120 => "Is a named type file"
  | 121 => "Remote I/O error"
  | 122 => "Disk quota exceeded"
  | 123 => "No medium found"
  | 124 => "Wrong medium type"
  | 125 => "Operation canceled"
  | 126 => "Required key not available"
  | 127 => "Key has expired"
  | 128 => "Key has been revoked"
  | 129 => "Key was rejected by service"
  | 130 => "Owner died"
  | 131 => "State not recoverable"
  | 132 => "Operation not possible due to RF-kill"
  | 133 => "Memory page has hardware error"
  | n => s!"Unknown error {n}"

/-- Why the system refused something. -/
inductive OsError where
  /-- The number that the system gave; negative ones have no meaning but can be reported. -/
  | errno (n : Int)
  /-- A cause without a number; `denied` tells a lack of permission from all else. -/
  | plain (denied : Bool) (text : String)
  deriving DecidableEq, Repr, Inhabited

namespace OsError

def notFound : OsError := errno 2
def busy : OsError := errno 16
def alreadyExists : OsError := errno 17
def notDirectory : OsError := errno 20
def isDirectory : OsError := errno 21
def invalidArgument : OsError := errno 22
def noSpace : OsError := errno 28
def nameTooLong : OsError := errno 36
def notEmpty : OsError := errno 39
def linkLoop : OsError := errno 40

/-- A path with a NUL in it never reaches the system. -/
def nulInPath : OsError := plain false "file name contained an unexpected NUL byte"

def isDenied : OsError → Bool
  | errno n => n == 1 || n == 13
  | plain denied _ => denied

def message : OsError → String
  | errno (.ofNat n) => s!"{errnoText n} (os error {n})"
  | errno n => s!"Unknown error {n} (os error {n})"
  | plain _ text => text

end OsError

/-- How far an error reaches. -/
inductive ErrorClass where
  /-- Ends the run before anything is changed. -/
  | fatal
  /-- Counts against one file. -/
  | perFile
  /-- Counts against one rule. -/
  | rule
  deriving DecidableEq, Repr

inductive Error where
  | invalidConfig (details : String)
  | missingConfig (path : Path)
  | configParse (context details : String)
  | invalidRoot (path : Path) (details : String)
  | invalidRule (ruleId details : String)
  | duplicateRule (ruleId : String)
  | decode (path : Path) (details : String)
  | io (path : Path) (cause : OsError)
  | permissionDenied (path : Path)
  | deletionRefused (path : Path) (reason : String)
  | serialization (context details : String)
  | ruleFailed (ruleId details : String)
  | runtime (details : String)
  deriving DecidableEq, Repr, Inhabited

namespace Error

def code : Error → String
  | invalidConfig _ => "SRW-1001"
  | missingConfig _ => "SRW-1002"
  | configParse .. => "SRW-1003"
  | invalidRoot .. => "SRW-1101"
  | invalidRule .. => "SRW-1201"
  | duplicateRule _ => "SRW-1202"
  | decode .. => "SRW-2001"
  | io .. => "SRW-2002"
  | permissionDenied _ => "SRW-2003"
  | deletionRefused .. => "SRW-2004"
  | serialization .. => "SRW-2101"
  | ruleFailed .. => "SRW-2201"
  | runtime _ => "SRW-3900"

def toClass : Error → ErrorClass
  | decode .. | io .. | permissionDenied _ | deletionRefused .. => .perFile
  | invalidRule .. | ruleFailed .. => .rule
  | _ => .fatal

def isFatal (e : Error) : Bool := e.toClass == .fatal

/-- The message without its code. -/
def body : Error → String
  | invalidConfig details => "invalid configuration: " ++ details
  | missingConfig path => "missing configuration file: " ++ path.text
  | configParse context details => "configuration parse failure in " ++ context ++ ": " ++ details
  | invalidRoot path details => "invalid root " ++ path.text ++ ": " ++ details
  | invalidRule id details => "invalid rule " ++ id ++ ": " ++ details
  | duplicateRule id => "duplicate rule id: " ++ id
  | decode path details => path.text ++ " is not valid UTF-8: " ++ details
  | io path cause => "IO failure at " ++ path.text ++ ": " ++ cause.message
  | permissionDenied path => "permission denied for " ++ path.text
  | deletionRefused path reason => "deletion refused for " ++ path.text ++ ": " ++ reason
  | serialization context details => "serialization failure in " ++ context ++ ": " ++ details
  | ruleFailed id details => "rule " ++ id ++ " failed: " ++ details
  | runtime details => "runtime failure: " ++ details

def message (e : Error) : String := "[" ++ e.code ++ "] " ++ e.body

/-- The error for a failed access to a path; a lack of permission has a code of its own. -/
def ofOs (path : Path) (cause : OsError) : Error :=
  if cause.isDenied then .permissionDenied path else .io path cause

end Error

end Codemod
