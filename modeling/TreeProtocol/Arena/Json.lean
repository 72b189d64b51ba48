import TreeProtocol.Arena.Basic
import TreeProtocol.Json.Record

/-!
# Handles in documents

A handle is written as its position.
-/

namespace TreeProtocol

/-- A handle as a document. -/
def Handle.toJson (h : Handle) : Json := .natural h.index

/-- Reads a handle. -/
def Handle.ofJson? (j : Json) : Option Handle := j.nat?.map Handle.mk

end TreeProtocol
