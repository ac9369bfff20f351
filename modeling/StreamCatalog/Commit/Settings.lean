import StreamCatalog.Geometry.Operator

/-!
# Settings of a commit

What the commit of a chunk to a catalog needs to know about the stream.
-/

namespace StreamCatalog

/-- How the chunks of a stream are committed. -/
structure CommitSettings where
  /-- The title of the stream. -/
  title : String
  /-- The title of the parent record, if it is not that of the stream. -/
  parentTitle : Option String
  /-- The address on which the stream is received. -/
  streamUri : String
  /-- How many milliseconds the parent waits for its update. -/
  initialDelay : Nat
  /-- How often a request is made at most; zero counts as one. -/
  maxAttempts : Nat
  /-- How many milliseconds lie between two attempts. -/
  retryPause : Nat
  /-- The tolerances of locations. -/
  tolerances : Tolerances

namespace CommitSettings

/-- How often a request is made unless a number is given. -/
def standardAttempts : Nat := 5

/-- The settings of a stream that has none of its own. -/
def standard (title streamUri : String) : CommitSettings where
  title := title
  parentTitle := none
  streamUri := streamUri
  initialDelay := 0
  maxAttempts := standardAttempts
  retryPause := 500
  tolerances := .standard
end CommitSettings

end StreamCatalog
