/-!
# Errors of the message layer

The variants the frame readers report.  An end of file inside or before a frame
is the source of the read variants.
-/

namespace PbMapper.Core

inductive Error where
  | msgNetworkReadCheckSum
  | msgNetworkReadDatalen
  | msgNetworkReadBody
  | msgDatalenExceeded (actual max : Nat)
  | msgDatalenValidate (datalen checksum : Nat)
  | msgCodec (action detail : String)
deriving DecidableEq, Repr

end PbMapper.Core
