-- SUMMARY: Which product types a build leaves out, which it prefers, and the groups that the types belong to.
import Stylme.Data.Common
import Stylme.Lib.WholeWord

/-!
# The policy of a build

The terms are looked for in normalized texts. A forbidden term must stand between characters that are
no letters or digits; the other ones may stand anywhere.
-/

namespace Stylme

open Conc

namespace Data

/-! ## Tables -/

/-- `EXCLUDED_PRODUCT_TYPES` -/
def excludedProductTypes : List String :=
  ["baby-sleeping-bag", "bath-robe", "boxers", "bra", "briefs", "camisoles", "corset",
   "innerwear-vests", "lingerie-accessories", "lingerie-set", "lounge-pants", "lounge-shorts",
   "lounge-tshirts", "night-suits", "nightdress", "pyjamas", "robe", "shapewear", "sleepsuit",
   "slips", "socks", "stockings", "swim-bottoms", "swim-tops", "swimwear", "swimwear-accessories",
   "swimwear-cover-up-bottom", "swimwear-cover-up-top", "thermal-bottoms", "thermal-set",
   "thermal-tops", "trunk"]

/-- The alternatives of `FORBIDDEN_TEXT`. -/
def forbiddenTerms : List String :=
  ["bra", "bralette", "panty", "panties", "lingerie", "underwear", "undergarment", "brief",
   "briefs", "trunk", "trunks", "boxer", "boxers", "shapewear", "innerwear", "camisole",
   "camisoles", "corset", "corsets", "sleepwear", "nightwear", "nightdress", "swimwear", "bikini",
   "stocking", "stockings", "sock", "socks", "thermal", "thermals"]

/-- `FESTIVE_TERMS` -/
def festiveTerms : List String :=
  ["saree", "kurta", "kurti", "lehenga", "ethnic", "anarkali", "dupatta", "salwar", "churidar",
   "sherwani", "bandhgala", "nehru", "festive", "wedding", "bridal", "zari", "sequinned", "sequin",
   "mirror work", "gota patti", "chikankari"]

/-- `GEN_Z_TERMS` -/
def genZTerms : List String :=
  ["oversized", "crop", "co ord", "co-ord", "cargo", "graphic", "streetwear", "street", "wide leg",
   "baggy", "parachute", "y2k", "halter", "off shoulder"]

/-- `GEN_ALPHA_TERMS` -/
def genAlphaTerms : List String :=
  ["baby", "kid", "junior", "toddler", "boys", "girls", "children"]

/-- `FOOTWEAR_TERMS` -/
def footwearTerms : List String :=
  ["shoe", "heel", "sandal", "flat", "boot", "loafer", "slipper", "flip-flop", "sneaker"]

/-- `APPAREL_TERMS` -/
def apparelTerms : List String :=
  ["tshirt", "t-shirt", "shirt", "jean", "kurta", "kurti", "saree", "dress", "trouser", "top",
   "short", "bra", "brief", "trunk", "boxer", "pant", "palazzo", "legging", "jegging", "tights",
   "sweatshirt", "sweater", "jacket", "coat", "blazer", "shrug", "skirt", "lehenga", "night",
   "lingerie", "camisole", "clothing", "swimwear", "blouse", "dupatta", "vest", "suit", "sherwani",
   "dhoti", "tunics", "thermal", "romper", "shawl", "churidar", "salwar", "pyjama", "co-ord",
   "stocking", "socks"]

/-- `CATEGORY_RULES` -/
def categoryRules : List (String × List String) :=
  [("footwear", footwearTerms),
    ("jewellery",
      ["jewellery", "earring", "necklace", "bracelet", "ring", "bangle", "pendant", "anklet",
       "rakhi", "mangalsutra", "nosepin", "brooch"]),
    ("beauty",
      ["lip", "makeup", "face-", "hair-", "perfume", "deodorant", "serum", "moistur", "cleanser",
       "shampoo", "nail-", "body-", "eyeshadow", "kajal", "eyeliner", "foundation", "highlighter",
       "blush", "concealer", "compact", "sunscreen", "toner", "mascara", "skin-care", "shaving",
       "hygiene", "beauty-accessory"]),
    ("home",
      ["bedsheet", "bedding", "duvet", "lamp", "carpet", "towel", "doormat", "floor-mat", "pillow",
       "cushion", "blanket", "curtain", "cookware", "kitchen", "dinnerware", "serveware",
       "drinkware", "cutlery", "mug", "bottle", "storage", "bath-rug", "bathroom", "mattress",
       "table-cover", "placemat", "tray", "coaster", "decal"]),
    ("electronics",
      ["headphone", "earphone", "speaker", "power-bank", "charger", "smart-home", "camera-access",
       "computer-access", "tablet-access"]),
    ("kids",
      ["toy", "learning-and-development", "activity-games", "baby-utensil", "baby-care",
       "school-supplies"]),
    ("accessories",
      ["watch", "sunglass", "backpack", "rucksack", "wallet", "belt", "bag", "clutch",
       "mobile-access", "cap", "hat", "scarf", "stole", "tie", "pocket-square", "cufflink", "frame",
       "travel-accessory", "headband", "muffler", "glove", "umbrella", "handkerchief", "suspender",
       "accessory-gift"]),
    ("apparel", apparelTerms)]

/-! ## The policy -/

variable (lib : Library)

/-- `is_policy_excluded` -/
def isPolicyExcluded (productType : String) (context : List (Option String)) : Bool :=
  let key := slugify lib productType "item"
  if key ∈ excludedProductTypes then true
  else
    let text := " ".intercalate (substitute '-' ' ' key :: context.map (normalizeText lib))
    forbiddenTerms.any fun term => occursWord isSlugChar term.toList none text.toList

/-- `priority_multiplier`, as the value of the float -/
def priorityMultiplier (productType : String) (context : List (Option String)) : ℚ :=
  let text := " ".intercalate (substitute '-' ' ' productType :: context.map (normalizeText lib))
  let times (factor : ℚ) (terms : List String) (m : ℚ) : ℚ :=
    if terms.any (isIn · text) then Binary64.round (m * Binary64.round factor) else m
  min (times (9 / 5) ["dress", "co ord", "lehenga", "saree", "kurta set"]
    (times (5 / 2) genAlphaTerms (times (7 / 2) genZTerms (times (9 / 2) festiveTerms 1)))) 12

/-- `category_group` -/
def categoryGroup (productType : String) (context : List (Option String)) : String :=
  let text := " ".intercalate
    (productType :: context.map fun value => substitute ' ' '-' (normalizeText lib value))
  ((categoryRules.find? fun rule => rule.2.any (isIn · text)).map (·.1)).getD "other"

end Data

end Stylme
