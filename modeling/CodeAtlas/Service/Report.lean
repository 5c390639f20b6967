import CodeAtlas.Clock
import CodeAtlas.Explore
import CodeAtlas.Json.Basic
import CodeAtlas.Service.Job

/-!
# CodeAtlas.Service.Report

What the service tells, as JSON values. The fields of an object stand in the ascending
order of their names.
-/

namespace CodeAtlas

namespace Report

/-- A field for each of some numbers, in ascending order of the names. -/
def numbers (fields : List (String × Nat)) : Json :=
  .object ((fields.mergeSort fun a b => a.1 ≤ b.1).map fun (k, n) => (k, .nat n))

def time (ms : Int) : Json := .text (Clock.text ms)

def timeOrNull : Option Int → Json
  | some ms => time ms
  | none => .null

def span (s : Span) : Json := .object [
  ("end_col", .nat s.endCol),
  ("end_line", .nat s.endLine),
  ("start_col", .nat s.startCol),
  ("start_line", .nat s.startLine)]

def node (n : Node) : Json := .object [
  ("file_path", .text n.file),
  ("id", .text n.id),
  ("kind", .text n.kind.name),
  ("language", .text n.language),
  ("name", .text n.name),
  ("qualified_name", .text n.qualifiedName),
  ("signature", .textOrNull n.signature),
  ("span", span n.span)]

def nodes (ns : List Node) : Json := .array (ns.map node)

def edge (e : Edge) : Json := .object [
  ("confidence", .text e.confidence.name),
  ("dst", .textOrNull e.target),
  ("file_path", .text e.file),
  ("id", .text e.id),
  ("relationship", .text e.relationship.name),
  ("span", span e.span),
  ("src", .text e.source),
  ("target_ref", .text e.targetRef)]

def relation (r : Relation) : Json := .object [("edge", edge r.edge), ("node", node r.node)]

def relations (rs : List Relation) : Json := .array (rs.map relation)

def importGraph (g : ImportGraph) : Json := .object [
  ("direct", nodes g.direct),
  ("module", node g.module),
  ("transitive", nodes g.transitive)]

def stats (s : Stats) : Json := .object [
  ("edge_count", .nat s.edgeCount),
  ("file_count", .nat s.fileCount),
  ("node_count", .nat s.nodeCount),
  ("node_kind_counts", numbers (s.nodeKinds.map fun (k, n) => (k.name, n))),
  ("relationship_type_counts", numbers (s.relationships.map fun (r, n) => (r.name, n))),
  ("unresolved_edge_count", .nat s.unresolvedEdgeCount)]

def repository (r : Repository) : Json := .object [
  ("indexed_at", time r.indexedAt),
  ("is_dependency", .bool r.isDependency),
  ("name", .text r.name),
  ("path", .text r.path)]

def job (j : Job) : Json := .object [
  ("errors", .texts j.errors),
  ("estimated_seconds", .nat j.estimatedSeconds),
  ("finished_at", timeOrNull j.finishedAt),
  ("id", .text j.id),
  ("path", .text j.path),
  ("processed_files", .nat j.processedFiles),
  ("started_at", time j.startedAt),
  ("status", .text j.state.name),
  ("total_files", .nat j.totalFiles)]

def scheduler (s : SchedulerStatus) : Json := .object [
  ("failed", .array (s.failed.map fun (path, e) =>
    .object [("error", .text e), ("path", .text path)])),
  ("in_flight", .nat s.inFlight),
  ("pending", .texts s.pending),
  ("processed", .nat s.processed),
  ("queued", .nat s.queued),
  ("states", numbers (s.states.map fun (state, n) => (state.name, n)))]

end Report

end CodeAtlas
