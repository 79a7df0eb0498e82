set_option autoImplicit false

namespace DemandPaging.Text

def hex (n : Nat) : String := "0x" ++ String.ofList (Nat.toDigits 16 n)

end DemandPaging.Text
