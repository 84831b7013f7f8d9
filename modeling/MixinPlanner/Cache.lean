/-
The plan cache: plans that were resolved before, under keys that stand for everything a resolution depends on, the context,
the catalog and the settings that decide what is resolved. A plan once kept is never replaced, and rejections are not kept.
-/
import MixinPlanner.Resolution
import MixinPlanner.Wire.Catalog
import MixinPlanner.Wire.Context

namespace MixinPlanner

/-- the three digests of a key, laid out -/
def cacheFields (settings : Settings) (catalog : Catalog) (context : Context) : Fields :=
  ((Fields.empty.text "context" context.contentHash.text).text "catalog" catalog.digest.text).text
    "config" settings.digest.text

/-- the key of a resolution -/
def cacheKey (settings : Settings) (catalog : Catalog) (context : Context) : ContentHash :=
  (cacheFields settings catalog context).hash

/-- plans by the texts of their keys -/
abbrev PlanCache : Type := SortedTable String Plan

namespace PlanCache

/-- the plan kept under a key -/
def plan? (cache : PlanCache) (key : ContentHash) : Option Plan := cache.get? key.text

/-- a plan kept under a key that has none, and the plan that is then under the key -/
def keep (cache : PlanCache) (key : ContentHash) (plan : Plan) : Plan × PlanCache :=
  match cache.plan? key with
  | some kept => (kept, cache)
  | none => (plan, cache.insert (key.text, plan))

/-- the plan of a context from the cache, or resolved and then kept -/
def resolve (cache : PlanCache) (settings : Settings) (catalog : Catalog) (context : Context) :
    Except (List Problem) Plan × PlanCache :=
  let key := cacheKey settings catalog context
  match cache.plan? key with
  | some plan => (.ok plan, cache)
  | none =>
    match context.resolve settings catalog with
    | .error problems => (.error problems, cache)
    | .ok plan => ((cache.keep key plan).map .ok id)

end PlanCache

end MixinPlanner
