/-! # Internet endpoints

An address and a port.  Addresses are kept as their bytes in network order. -/

namespace Proactor

/-- Where a socket is bound or connected to. -/
inductive Endpoint where
  | v4 (address : Vector UInt8 4) (port : UInt16)
  | v6 (address : Vector UInt8 16) (port : UInt16) (flow scope : UInt32)
deriving DecidableEq, Repr

namespace Endpoint

instance : Inhabited Endpoint := ⟨.v4 (Vector.replicate 4 0) 0⟩

/-- The address family, as the kernel numbers it. -/
def family : Endpoint → Int32
  | v4 .. => 2
  | v6 .. => 10

def port : Endpoint → UInt16
  | v4 _ p => p
  | v6 _ p _ _ => p

end Endpoint
end Proactor
