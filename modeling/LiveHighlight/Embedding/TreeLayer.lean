import LiveHighlight.Embedding.Language
import LiveHighlight.Nesting.TreeLayer

-- Layers of JSON trees.

namespace LiveHighlight.Embedding

abbrev Catalogue := Nesting.Catalogue LanguageSource Language

abbrev Sublayer := Nesting.Sublayer Language Json.Tree

abbrev TreeLayer := Nesting.TreeLayer LanguageSource Language Json.Tree

abbrev Catalogue.enter : Catalogue → LanguageSource → Catalogue := Nesting.Catalogue.enter

export LiveHighlight.Nesting (TreeLayer.defaultMaxDepth TreeLayer.make TreeLayer.ofSource)

end LiveHighlight.Embedding
