import SqlCatalog.Files.Path
import SqlCatalog.Token.Basic
/-!
How a catalog is set up, step by step; a later step replaces what an earlier one set.
-/
namespace SqlCatalog

structure CatalogOptions where
  -- Where inclusions are looked for, instead of the place of the including source.
  includeDir : Option Path
  dialect : Dialect
  lazy : Bool
  sqlDir : Option Path
  cacheCapacity : Option Nat
deriving DecidableEq

namespace CatalogOptions

def standard : CatalogOptions := ⟨none, .sqlite, false, none, none⟩

instance : Inhabited CatalogOptions := ⟨standard⟩

inductive Setting where
  | includeDir (path : Path)
  | dialect (d : Dialect)
  | lazy (on : Bool)
  | sqlDir (path : Path)
  | cacheCapacity (capacity : Nat)
  | options (all : CatalogOptions)
deriving DecidableEq

def set (o : CatalogOptions) : Setting → CatalogOptions
  | .includeDir path => { o with includeDir := some path }
  | .dialect d => { o with dialect := d }
  | .lazy on => { o with lazy := on }
  | .sqlDir path => { o with sqlDir := some path }
  | .cacheCapacity capacity => { o with cacheCapacity := some capacity }
  | .options all => all

def ofSettings (l : List Setting) : CatalogOptions := l.foldl set standard

end CatalogOptions
end SqlCatalog
