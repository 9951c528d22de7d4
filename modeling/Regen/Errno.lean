import Regen.Text.Quoted

/-! Numbers of system errors, their names and what they say. -/
namespace Regen

/-- The number of a system error. -/
abbrev Errno := Int

namespace Errno

def notFound : Errno := 2
def existing : Errno := 17
def notDirectory : Errno := 20
def isDirectory : Errno := 21
def nameTooLong : Errno := 36

/-- The names by number, from one on; numbers without a name have an empty one. -/
def names : List String :=
  ["eperm", "enoent", "esrch", "eintr", "eio", "enxio", "e2big", "enoexec", "ebadf", "echild",
   "eagain", "enomem", "eacces", "efault", "enotblk", "ebusy", "eexist", "exdev", "enodev",
   "enotdir", "eisdir", "einval", "enfile", "emfile", "enotty", "etxtbsy", "efbig", "enospc",
   "espipe", "erofs", "emlink", "epipe", "edom", "erange", "edeadlock", "enametoolong", "enolck",
   "enosys", "enotempty", "eloop", "", "enomsg", "eidrm", "echrng", "el2nsync", "el3hlt", "el3rst",
   "elnrng", "eunatch", "enocsi", "el2hlt", "ebade", "ebadr", "exfull", "enoano", "ebadrqc",
   "ebadslt", "", "ebfont", "enostr", "enodata", "etime", "enosr", "enonet", "enopkg", "eremote",
   "enolink", "eadv", "esrmnt", "ecomm", "eproto", "emultihop", "edotdot", "ebadmsg", "eoverflow",
   "enotuniq", "ebadfd", "eremchg", "elibacc", "elibbad", "elibscn", "elibmax", "elibexec",
   "eilseq", "erestart", "estrpipe", "eusers", "enotsock", "edestaddrreq", "emsgsize",
   "eprototype", "enoprotoopt", "eprotonosupport", "esocktnosupport", "enotsup", "epfnosupport",
   "eafnosupport", "eaddrinuse", "eaddrnotavail", "enetdown", "enetunreach", "enetreset",
   "econnaborted", "econnreset", "enobufs", "eisconn", "enotconn", "eshutdown", "etoomanyrefs",
   "etimedout", "econnrefused", "ehostdown", "ehostunreach", "ealready", "einprogress", "estale",
   "euclean", "enotnam", "enavail", "eisnam", "eremoteio", "edquot", "enomedium", "emediumtype",
   "ecanceled", "enokey", "ekeyexpired", "ekeyrevoked", "ekeyrejected", "eownerdead",
   "enotrecoverable", "erfkill"]

/-- The name of an error; empty for numbers that have none. -/
def name (errno : Errno) : String :=
  if errno ≤ 0 then "" else names.getD (errno.toNat - 1) ""

/-- What the errors of plain file work say. -/
def description (errno : Errno) : String :=
  if errno = notFound then "No such file or directory"
  else if errno = existing then "File exists"
  else if errno = notDirectory then "Not a directory"
  else if errno = isDirectory then "Is a directory"
  else "File name too long"

end Errno

/-- A system error about a path. -/
structure FileError where
  errno : Errno
  path : String
deriving DecidableEq, Repr

/-- The error in words. -/
def FileError.message (error : FileError) : String :=
  s!"[Errno {error.errno}] {Errno.description error.errno}: {quote error.path}"

end Regen
