/-!
# Failures of system calls

The system names a failure by a number.  A message shows the text of the number and the number
itself.
-/

namespace Chaperone

/-- The number of a failure, a signed word of 32 bits. -/
abbrev Errno := Int32

namespace Errno

def notPermitted : Errno := 1
def noEntry : Errno := 2
def noProcess : Errno := 3
def interrupted : Errno := 4
def tooBig : Errno := 7
def notExecutable : Errno := 8
def noChild : Errno := 10
def accessDenied : Errno := 13
def fileExists : Errno := 17
def notDirectory : Errno := 20
def isDirectory : Errno := 21
def invalid : Errno := 22
def nameTooLong : Errno := 36
def notEmpty : Errno := 39
def linkLoop : Errno := 40

/-- The texts of the numbers from 0 on; a gap has none. -/
def texts : Array String := #[
  "Success", "Operation not permitted", "No such file or directory", "No such process",
  "Interrupted system call", "Input/output error", "No such device or address",
  "Argument list too long", "Exec format error", "Bad file descriptor", "No child processes",
  "Resource temporarily unavailable", "Cannot allocate memory", "Permission denied",
  "Bad address", "Block device required", "Device or resource busy", "File exists",
  "Invalid cross-device link", "No such device", "Not a directory", "Is a directory",
  "Invalid argument", "Too many open files in system", "Too many open files",
  "Inappropriate ioctl for device", "Text file busy", "File too large",
  "No space left on device", "Illegal seek", "Read-only file system", "Too many links",
  "Broken pipe", "Numerical argument out of domain", "Numerical result out of range",
  "Resource deadlock avoided", "File name too long", "No locks available",
  "Function not implemented", "Directory not empty", "Too many levels of symbolic links", "",
  "No message of desired type", "Identifier removed", "Channel number out of range",
  "Level 2 not synchronized", "Level 3 halted", "Level 3 reset", "Link number out of range",
  "Protocol driver not attached", "No CSI structure available", "Level 2 halted",
  "Invalid exchange", "Invalid request descriptor", "Exchange full", "No anode",
  "Invalid request code", "Invalid slot", "", "Bad font file format", "Device not a stream",
  "No data available", "Timer expired", "Out of streams resources",
  "Machine is not on the network", "Package not installed", "Object is remote",
  "Link has been severed", "Advertise error", "Srmount error", "Communication error on send",
  "Protocol error", "Multihop attempted", "RFS specific error", "Bad message",
  "Value too large for defined data type", "Name not unique on network",
  "File descriptor in bad state", "Remote address changed",
  "Can not access a needed shared library", "Accessing a corrupted shared library",
  ".lib section in a.out corrupted", "Attempting to link in too many shared libraries",
  "Cannot exec a shared library directly", "Invalid or incomplete multibyte or wide character",
  "Interrupted system call should be restarted", "Streams pipe error", "Too many users",
  "Socket operation on non-socket", "Destination address required", "Message too long",
  "Protocol wrong type for socket", "Protocol not available", "Protocol not supported",
  "Socket type not supported", "Operation not supported", "Protocol family not supported",
  "Address family not supported by protocol", "Address already in use",
  "Cannot assign requested address", "Network is down", "Network is unreachable",
  "Network dropped connection on reset", "Software caused connection abort",
  "Connection reset by peer", "No buffer space available",
  "Transport endpoint is already connected", "Transport endpoint is not connected",
  "Cannot send after transport endpoint shutdown", "Too many references: cannot splice",
  "Connection timed out", "Connection refused", "Host is down", "No route to host",
  "Operation already in progress", "Operation now in progress", "Stale file handle",
  "Structure needs cleaning", "Not a XENIX named type file", "No XENIX semaphores available",
  "Is a named type file", "Remote I/O error", "Disk quota exceeded", "No medium found",
  "Wrong medium type", "Operation canceled", "Required key not available", "Key has expired",
  "Key has been revoked", "Key was rejected by service", "Owner died", "State not recoverable",
  "Operation not possible due to RF-kill", "Memory page has hardware error"]

/-- The entry of a table whose first entry is that of 0, unless there is a gap. -/
def lookup? (table : Array String) (errno : Errno) : Option String :=
  if errno < 0 then none
  else
    match table[errno.toInt.toNat]? with
    | none | some "" => none
    | some entry => some entry

/-- The text of a number. -/
def text (errno : Errno) : String :=
  (lookup? texts errno).getD ("Unknown error " ++ toString errno)

/-- The names of the numbers from 0 on; a gap has none. -/
def names : Array String := #[
  "UnknownErrno", "EPERM", "ENOENT", "ESRCH", "EINTR", "EIO", "ENXIO", "E2BIG", "ENOEXEC",
  "EBADF", "ECHILD", "EAGAIN", "ENOMEM", "EACCES", "EFAULT", "ENOTBLK", "EBUSY", "EEXIST",
  "EXDEV", "ENODEV", "ENOTDIR", "EISDIR", "EINVAL", "ENFILE", "EMFILE", "ENOTTY", "ETXTBSY",
  "EFBIG", "ENOSPC", "ESPIPE", "EROFS", "EMLINK", "EPIPE", "EDOM", "ERANGE", "EDEADLK",
  "ENAMETOOLONG", "ENOLCK", "ENOSYS", "ENOTEMPTY", "ELOOP", "", "ENOMSG", "EIDRM", "ECHRNG",
  "EL2NSYNC", "EL3HLT", "EL3RST", "ELNRNG", "EUNATCH", "ENOCSI", "EL2HLT", "EBADE", "EBADR",
  "EXFULL", "ENOANO", "EBADRQC", "EBADSLT", "", "EBFONT", "ENOSTR", "ENODATA", "ETIME", "ENOSR",
  "ENONET", "ENOPKG", "EREMOTE", "ENOLINK", "EADV", "ESRMNT", "ECOMM", "EPROTO", "EMULTIHOP",
  "EDOTDOT", "EBADMSG", "EOVERFLOW", "ENOTUNIQ", "EBADFD", "EREMCHG", "ELIBACC", "ELIBBAD",
  "ELIBSCN", "ELIBMAX", "ELIBEXEC", "EILSEQ", "ERESTART", "ESTRPIPE", "EUSERS", "ENOTSOCK",
  "EDESTADDRREQ", "EMSGSIZE", "EPROTOTYPE", "ENOPROTOOPT", "EPROTONOSUPPORT", "ESOCKTNOSUPPORT",
  "EOPNOTSUPP", "EPFNOSUPPORT", "EAFNOSUPPORT", "EADDRINUSE", "EADDRNOTAVAIL", "ENETDOWN",
  "ENETUNREACH", "ENETRESET", "ECONNABORTED", "ECONNRESET", "ENOBUFS", "EISCONN", "ENOTCONN",
  "ESHUTDOWN", "ETOOMANYREFS", "ETIMEDOUT", "ECONNREFUSED", "EHOSTDOWN", "EHOSTUNREACH",
  "EALREADY", "EINPROGRESS", "ESTALE", "EUCLEAN", "ENOTNAM", "ENAVAIL", "EISNAM", "EREMOTEIO",
  "EDQUOT", "ENOMEDIUM", "EMEDIUMTYPE", "ECANCELED", "ENOKEY", "EKEYEXPIRED", "EKEYREVOKED",
  "EKEYREJECTED", "EOWNERDEAD", "ENOTRECOVERABLE", "ERFKILL", "EHWPOISON"]

/-- The numbers whose short description is not their text. -/
def shortTexts : List (Errno × String) := [
  (0, "Unknown errno"), (5, "I/O error"), (9, "Bad file number"), (11, "Try again"),
  (12, "Out of memory"), (18, "Cross-device link"), (23, "File table overflow"),
  (25, "Not a typewriter"), (33, "Math argument out of domain of func"),
  (34, "Math result not representable"), (35, "Resource deadlock would occur"),
  (37, "No record locks available"), (40, "Too many symbolic links encountered"),
  (74, "Not a data message"), (84, "Illegal byte sequence"),
  (95, "Operation not supported on transport endpoint"),
  (102, "Network dropped connection because of reset"), (122, "Quota exceeded")]

/-- The name of a number with its short description; a number without a name counts as 0. -/
def named (errno : Errno) : String :=
  let errno := if (lookup? names errno).isSome then errno else 0
  (lookup? names errno).getD "" ++ ": " ++ (shortTexts.lookup errno).getD (text errno)

end Errno

/-- Why an operation on a file, a pipe or a process failed. -/
inductive SystemError where
  /-- A system call failed. -/
  | os (errno : Errno)
  /-- The operation was refused before any system call. -/
  | refused (reason : String)
  deriving DecidableEq, Repr, Inhabited

namespace SystemError

/-- The text of a failure. -/
def message : SystemError → String
  | .os errno => errno.text ++ " (os error " ++ toString errno ++ ")"
  | .refused reason => reason

/-- The number of a failed system call. -/
def errno? : SystemError → Option Errno
  | .os errno => some errno
  | .refused _ => none

end SystemError

end Chaperone
