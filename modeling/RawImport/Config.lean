import RawImport.Filesystem

/-!
# Configuration

The settings of `config.h` that the modelled code reads, with the defaults of
that header.
-/

namespace RawImport

/-- Conversion settings forwarded to the engine. -/
structure ConversionSettings where
  compression : String := "lossless"
  previewMedium : String := "1024x1024"
  previewFull : String := "4000x3000"
  version : String := "1.4"
  jpegQuality : Int := 92
  linear : Bool := false
  deriving DecidableEq, Repr

structure Config where
  watchDir : Path := "/watch"
  outputDir : Path := "/output"
  archiveDir : Path := "/archive"
  folderSchema : String := "%Y/%m"
  genThumbJpeg : Bool := false
  defCompression : String := "lossless"
  pollIntervalSec : Int := 10
  debounceSec : Int := 10
  deadLetterMaxRetries : Int := 3
  fastFingerprint : Bool := true
  apiToken : String := ""
  deriving DecidableEq, Repr

end RawImport
