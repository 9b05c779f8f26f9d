import ImageTransfer.Compression.Bzip2
import ImageTransfer.Compression.Gzip
import ImageTransfer.Compression.Stream
import ImageTransfer.Compression.Xz
import ImageTransfer.Compression.Zstd.Frame

/-!
# The decoders of all formats
-/

namespace ImageTransfer.Compression

/-- The decoder of a format without members, which never has a byte. -/
def noDecoder : MemberDecoder := ⟨Unit, (), fun _ _ => .corrupt⟩

/-- The decoder of each format. -/
def decoder : Compression → MemberDecoder
  | .gzip => Gzip.decoder
  | .bzip2 => Bzip2.decoder
  | .xz => Xz.decoder
  | .zstd => Zstd.decoder
  | .identity => noDecoder

end ImageTransfer.Compression
