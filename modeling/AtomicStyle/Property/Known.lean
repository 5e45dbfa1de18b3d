import AtomicStyle.Property.Domain
import AtomicStyle.Property.Logical
import AtomicStyle.Property.Shorthand

/-!
# The properties known by name

Strict property checking refuses a name that no table holds.  A custom property is always known.
-/

namespace AtomicStyle.Property

/-- Whether the canonical spelling of a property is that of a custom property or stands in a
table. -/
def isKnown (property : String) : Bool :=
  isCustom property || (logical? property).isSome || (shorthand? property).isSome ||
    (domain? property).isSome

end AtomicStyle.Property
