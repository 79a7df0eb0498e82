import DemandPaging.Fill
import DemandPaging.Shape

set_option autoImplicit false

namespace DemandPaging

variable [Platform]

structure Template where
  shape : Shape
  -- Changes to a read-only object are lost when its chunks are evicted.
  readOnly : Bool
  filler : Option Filler
  client : Option ClientData

namespace Template

def ofShape (shape : Shape) : Template where
  shape
  readOnly := false
  filler := none
  client := none

def layout (t : Template) : Layout := t.shape.layout

def debugText (t : Template) : String :=
  "ObjectConfig \x7b header_size: " ++ toString t.shape.headerSize ++ ", element_count: " ++
    toString t.shape.elementCount ++ ", stride: " ++ toString t.shape.stride ++ ", objects_at_once: " ++
    toString t.shape.perChunk ++ ", read_only: " ++ toString t.readOnly ++ ", has_populate: " ++
    toString t.filler.isSome ++ ", has_user_data: " ++ toString t.client.isSome ++ " \x7d"

end Template

end DemandPaging
