import PhoenixLens.Elixir.Controllers
import PhoenixLens.Elixir.EctoSchemas
import PhoenixLens.Elixir.EventHandlers
import PhoenixLens.Elixir.FunctionComponents
import PhoenixLens.Elixir.Router
import PhoenixLens.Elixir.TemplateFiles
import PhoenixLens.Model.EntityKind

/-!
# Scanning source by lines

One scanner for each kind of entity. A scanner never fails; the one for templates looks at the disk,
for templates in files of their own.
-/

namespace PhoenixLens

/-- The entities of a kind in a source text. -/
def EntityKind.scan (disk : Disk) (path : Path) (content : List Char) :
    (kind : EntityKind) → List kind.Entity
  | .components => Elixir.componentsOf path content
  | .routes => Elixir.routesOf path content
  | .events => Elixir.eventsOf path content
  | .schemas => Elixir.schemasOf path content
  | .templates => Elixir.templatesOf disk path content
  | .controllers => Elixir.controllersOf path content

end PhoenixLens
