import ImageTransfer.Registry.Client
import ImageTransfer.Transfer.Integrity

/-!
# Pulling blobs

A blob is written out as it arrives. Its digest is known only in the end, so a mismatch is found when
the bytes have been written.
-/

namespace ImageTransfer.Transfer

open Exchange

/-- Writes a blob to the sink and gives its size. -/
def pullBlob (s : Settings) (policy : Option IntegrityPolicy) (ref : Reference) (digest : String) :
    Exchange Nat := do
  Registry.checkAddress digest
  log .pulling .debug s!"Pulling blob {digest} from {ref.registry}/{ref.repository}"
  let start ← ofExcept (Digest.Digester.ofName (Digest.algorithmName digest)) .digest
  let digester ← Registry.foldBlob s ref digest [] start fun d piece => do
    write piece
    return d.update piece
  let _ ← checkDigest (policy.getD s.verify) s!"blob {digest}" digest digester.digest
  return digester.size

end ImageTransfer.Transfer
