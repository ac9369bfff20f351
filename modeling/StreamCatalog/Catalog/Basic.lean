import StreamCatalog.Bytes
import StreamCatalog.Record.Basic

/-!
# Catalogs

A catalog answers four requests: to create a record, to create one with stored
content, to set attributes of a record, and to give a record. Each request is a
function on the state of the catalog. A catalog that is unavailable may answer
later; a request that is rejected will be rejected again.
-/

namespace StreamCatalog

/-- Why a catalog does not do what it is asked for. -/
inductive CatalogError where
  /-- The catalog cannot answer now. -/
  | unavailable (reason : String)
  /-- The catalog refuses the request. -/
  | rejected (reason : String)
deriving DecidableEq, Repr

namespace CatalogError

/-- Whether the same request may succeed later. -/
def isTransient : CatalogError → Bool
  | unavailable _ => true
  | rejected _ => false

/-- What is said about the failure. -/
def message : CatalogError → String
  | unavailable reason => "Catalog unavailable: " ++ reason
  | rejected reason => "Request rejected: " ++ reason

end CatalogError

/-- The format of stored chunks. -/
def chunkMimeType : String := "video/mp2t"

/-- A file that is to be stored. -/
structure ContentSource where
  /-- Where the file is. -/
  path : String
  /-- Its bytes, if there is such a file. -/
  bytes? : Option Bytes

/-- A request to create a record with stored content. -/
structure ContentRequest where
  /-- The record. -/
  record : Record
  /-- The file. -/
  source : ContentSource
  /-- The format of the file. -/
  mimeType : String

/-- The answers of a catalog, by its state. -/
structure Catalog (σ : Type) where
  /-- Create a record, and give it as it is stored. -/
  create : Record → σ → Except CatalogError Record × σ
  /-- Create a record with stored content, and give it as it is stored. -/
  createContent : ContentRequest → σ → Except CatalogError Record × σ
  /-- Set attributes of the record of an identifier, and give it as it is then. -/
  update : String → Attributes → σ → Except CatalogError Record × σ
  /-- The record of an identifier. -/
  get : String → σ → Except CatalogError (Option Record)

end StreamCatalog
