import ScriptDebugger.Markup
import ScriptDebugger.Value

namespace ScriptDebugger

inductive TypeTag where
  | object
  | function
  | array
  | hostArray
  | hostObject
  | hostClass
  | string
  | number
  | boolean
  | date
  | undefined
  | xml
  deriving DecidableEq, Repr

namespace TypeTag

def text : TypeTag → String
  | object => "Object"
  | function => "function"
  | array => "array"
  | hostArray => "javaarray"
  | hostObject => "javaobject"
  | hostClass => "javaclass"
  | string => "string"
  | number => "number"
  | boolean => "boolean"
  | date => "date"
  | undefined => "undefined"
  | xml => "XML"

def ofScalar : Scalar → TypeTag
  | .string _ => string
  | .number _ => number
  | .boolean _ => boolean
  | .date _ => date
  | .undefined | .null => undefined
  | .notFound | .other _ _ => object

end TypeTag

inductive Node where
  | mk (name path : String) (type : TypeTag) (className text : String) (hasChildren : Bool)
      (childCount : Nat) (children : List Node)
  deriving Repr

namespace Node

def name : Node → String
  | mk name _ _ _ _ _ _ _ => name

def path : Node → String
  | mk _ path _ _ _ _ _ _ => path

def type : Node → TypeTag
  | mk _ _ type _ _ _ _ _ => type

def className : Node → String
  | mk _ _ _ className _ _ _ _ => className

def text : Node → String
  | mk _ _ _ _ text _ _ _ => text

def hasChildren : Node → Bool
  | mk _ _ _ _ _ hasChildren _ _ => hasChildren

def childCount : Node → Nat
  | mk _ _ _ _ _ _ childCount _ => childCount

def children : Node → List Node
  | mk _ _ _ _ _ _ _ children => children

mutual

def expandedDepth : Node → Nat
  | mk _ _ _ _ _ _ _ children => levelsBelow children

/-- The number of levels that a list of children adds. -/
def levelsBelow : List Node → Nat
  | [] => 0
  | child :: rest => max (child.expandedDepth + 1) (levelsBelow rest)

end

def elementAttributes (name path : String) (type : TypeTag) (className : String)
    (hasChildren : Bool) (childCount : Nat) : List Attribute :=
  [("name", name), ("fullname", path), ("type", type.text), ("classname", className),
    ("constant", "0"), ("children", if hasChildren then "1" else "0"), ("encoding", "base64"),
    ("numchildren", Text.numeral childCount)]

def attributes (n : Node) : List Attribute :=
  elementAttributes n.name n.path n.type n.className n.hasChildren n.childCount

mutual

def toPart : Node → Part
  | mk name path type className text hasChildren childCount children =>
      .element "property"
        (elementAttributes name path type className hasChildren childCount)
        (.payload text :: toParts children)

def toParts : List Node → List Part
  | [] => []
  | child :: rest => child.toPart :: toParts rest

end

def toElement (n : Node) : Element :=
  { tag := "property"
    attributes := n.attributes
    content := .payload n.text :: toParts n.children }

@[simp] theorem toPart_toElement (n : Node) : n.toElement.toPart = n.toPart := by
  cases n
  simp [toElement, Element.toPart, toPart, attributes, name, path, type, className, text,
    hasChildren, childCount, children]

def render (n : Node) : String :=
  n.toElement.render

end Node

end ScriptDebugger
