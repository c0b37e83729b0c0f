import Rndz.Lib.Wire

/-!
# Requests and responses

The messages of `proto/rndz.proto`. A `oneof` that is not set, or set to a field this
version does not know, is `none`. `Fsync` and `Rsync` also carry the unknown fields of the
message they were parsed from, sorted by number and type: the TCP server passes these two on as a
whole.
-/
namespace Rndz.Proto

structure Isync where
  id : String
  deriving DecidableEq, Repr

structure Fsync where
  id : String
  addr : String
  unknownFields : List Wire.Field := []
  deriving DecidableEq, Repr

structure Rsync where
  id : String
  unknownFields : List Wire.Field := []
  deriving DecidableEq, Repr

structure Redirect where
  id : String
  addr : String
  deriving DecidableEq, Repr

inductive ReqCmd where
  | ping
  | isync (isync : Isync)
  | fsync (fsync : Fsync)
  | rsync (rsync : Rsync)
  | bye
  deriving DecidableEq, Repr

structure Request where
  id : String
  cmd : Option ReqCmd
  deriving DecidableEq, Repr

inductive RespCmd where
  | pong
  | redirect (redirect : Redirect)
  | fsync (fsync : Fsync)
  deriving DecidableEq, Repr

structure Response where
  id : String
  cmd : Option RespCmd
  deriving DecidableEq, Repr

end Rndz.Proto
