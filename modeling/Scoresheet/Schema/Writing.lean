import Scoresheet.Document
import Scoresheet.Schema

/-!
# Writing schemas

The document of a schema.  What is not there is left out; what means nothing to the schema comes last.
-/
namespace Scoresheet

namespace Count

def document (c : Count) : Document :=
  .object (Document.ofOptional [("count", c.number.map Document.ofScore)])

end Count

namespace Field

def document (f : Field) : Document :=
  .object (Document.ofOptional [
    ("code", some (.text f.code)),
    ("label", f.label.map .text),
    ("type", f.kind.map .text),
    ("shape", f.shape.map .text),
    ("decimals", f.decimals.map .whole),
    ("min", f.lower.map Document.ofScore),
    ("max", f.upper.map Document.ofScore),
    ("judges", f.judges.map Count.document),
    ("items", f.items.map Count.document),
    ("crash", f.crash.map fun enabled => .object [("enabled", .bool enabled)]),
    ("var", f.var.map .text)] ++ Document.ofEntries f.extra.entries)

/-- The field as a formula sees it. -/
def value (f : Field) : Value := f.document.toValue

end Field

namespace Computed

def document (c : Computed) : Document :=
  .object (Document.ofOptional [
    ("code", some (.text c.code)),
    ("label", c.label.map .text),
    ("formula", c.formula.map .text),
    ("var", c.var.map .text)] ++ Document.ofEntries c.extra.entries)

end Computed

namespace Schema

def document (s : Schema) : Document :=
  .object (Document.ofOptional [
    ("params", some (.object (Document.ofEntries s.params.entries))),
    ("fields", some (.list (s.fields.map Field.document))),
    ("computed", some (.list (s.computed.map Computed.document))),
    ("ui", s.ui.map Document.ofValue)])

end Schema

end Scoresheet
