import LocalSend.PathSafety
import LocalSend.Protocol.Types

/-!
# Metadata of files to send

`src/core/file.rs`. The ids are random, and the type of a file is guessed from its name by a crate,
so both are inputs here, and so is what the file system says of a file.
-/

namespace LocalSend

/-- `str::as_bytes`. -/
def textBytes (text : String) : List UInt8 := text.toList.flatMap String.utf8EncodeChar

/-- `build_file_metadata`, of a file of the given length. -/
def buildFileMetadata (id : FileId) (path : PathBuf) (length : Nat) (mimeType : String) :
    FileMetadata where
  id := id
  fileName := path.fileName.getD "unknown"
  size := length
  fileType := mimeType
  sha256 := none
  preview := none
  metadata := none

/-- `build_file_metadata_from_bytes`. -/
def buildFileMetadataFromBytes (id : FileId) (fileName fileType : String) (bytes : List UInt8) :
    FileMetadata where
  id := id
  fileName := fileName
  size := bytes.length
  fileType := fileType
  sha256 := none
  preview := none
  metadata := none

end LocalSend
