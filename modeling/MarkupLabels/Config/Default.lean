import MarkupLabels.Import.Provenance
import MarkupLabels.Tree.Rules

namespace MarkupLabels.Config

def texts (ss : List CodePoints) : Value := .list (ss.map .text)

def defaultExtensions : List CodePoints := [".tsx", ".jsx", ".js"]

def defaultExcluded : List CodePoints := ["node_modules", "dist", "build", ".git"]

def default : Value := .mapping [
  (.text "packages", texts Provenance.defaultPackages),
  (.text "default_import_names", texts Provenance.defaultNames),
  (.text "files", .mapping [
    (.text "extensions", texts defaultExtensions),
    (.text "exclude_dirs", texts defaultExcluded)]),
  (.text "rules", .mapping [
    (.text "skip_structural_children", .bool false),
    (.text "structural_children", texts Rules.defaultStructural)])]

end MarkupLabels.Config
