/-!
# The chain source

What a claim asks of a Grin node: a kernel by its excess, and the tip. The
answers are part of the world and may change at any time.
-/

namespace Nip05d

/-- Outcome of a kernel lookup against the chain. -/
structure KernelResult where
  found : Bool
  confirmations : UInt64
  height : Option UInt64
  deriving DecidableEq

/-- The answers a node gives at one time. -/
structure ChainSource where
  kernel : String → Except String KernelResult
  tipHeight : Except String UInt64

end Nip05d
