import LunchRush.Area
import LunchRush.Fixture
import LunchRush.Json.Printer
import LunchRush.Order
import LunchRush.Registration
/-!
# What is sent and shown

The JSON values of requests, restaurants and fixtures, their fields in the order in which they are
sent.
-/

namespace LunchRush

/-- A text under a key. -/
def Json.textField (key text : String) : String × Json := (key, .text text)

open Json (textField)

def MenuItem.toJson (item : MenuItem) : Json :=
  .record [textField "item_id" item.itemId.text, textField "name" item.name,
    textField "description" item.description, ("price", .float item.price)]

def MenuTemplate.toJson (t : MenuTemplate) : Json :=
  .record [textField "name" t.name, textField "description" t.description,
    ("price", .float t.price)]

def Registration.toJson (r : Registration) : Json :=
  .record [textField "name" r.name, textField "email" r.email,
    textField "secret_key" r.secretKey, ("latitude", .float r.latitude),
    ("longitude", .float r.longitude), ("menus", .list (r.menus.map MenuTemplate.toJson))]

def OrderLine.toJson (line : OrderLine) : Json :=
  .record [textField "item_id" line.itemId.text, ("quantity", .ofNat line.quantity)]

def Order.toJson (o : Order) : Json :=
  .record [textField "customer_id" o.customerId.text,
    textField "restaurant_id" o.restaurantId.text, ("items", .list (o.lines.map OrderLine.toJson))]

def Area.toJson (a : Area) : Json :=
  .record [("latitude", .float a.latitude), ("longitude", .float a.longitude),
    ("radius_km", .float a.radiusKm)]

def Restaurant.toJson (r : Restaurant) : Json :=
  .record [textField "restaurant_id" r.restaurantId.text, textField "name" r.name,
    textField "email" r.email, ("latitude", .float r.latitude), ("longitude", .float r.longitude),
    ("menus", .list (r.menus.map MenuItem.toJson))]

def Fixture.toJson (f : Fixture) : Json :=
  .record [textField "restaurant_id" f.restaurantId.text,
    ("menus", .list (f.menus.map MenuItem.toJson))]

end LunchRush
