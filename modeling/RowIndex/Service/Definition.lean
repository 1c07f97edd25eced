import RowIndex.Index.Settings
import RowIndex.Schema

/-!
# Service/Definition — the definition of a row index
-/

namespace RowIndex

/-- The definition of a row index; every part has a default. -/
structure Definition where
  /-- The column that carries the score of a found row. -/
  column : String := "score"
  /-- The mapped fields. -/
  schema : Schema := {}
  /-- How the index is kept. -/
  settings : Settings := {}
  deriving DecidableEq

end RowIndex
